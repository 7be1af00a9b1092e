import AirspyHF.Device.Basic

/-!
# Tuning the local oscillator

`airspyhf_set_freq_double` and the calls that end in it.  The frequency asked for is corrected by
the calibration, moved by the IF shift and rounded to the kilohertz grid of the local oscillator
(`Target.loKhz`).  If that differs from the frequency last sent, the receiver is retuned and asked
for the error of its synthesiser; the rest is left to the mixer (`freq_shift`).

The `double`s of the driver are exact rational numbers here: `freq_hz`, `freq_shift`,
`freq_delta_hz` and the products that are rounded to kilohertz do not round before that.

`Target.TuneRun` lists everything a call can do (`Target.setFreqDouble_run`); the later modules
reason about a call through it.
-/

namespace AirspyHF

/-- `DEFAULT_IF_SHIFT`. -/
def defaultIfShift : ℚ := 5000

/-- `MIN_ZERO_IF_LO`. -/
def minZeroIfLo : UInt32 := 180

/-- `MIN_LOW_IF_LO`. -/
def minLowIfLo : UInt32 := 84

/-! ### Pure arithmetic -/

/-- The frequency after calibration. -/
def adjustedFreqHz (calibrationPpb : Int32) (freqHz : ℚ) : ℚ :=
  freqHz * (10 ^ 9 + calibrationPpb.toInt) * (1 / 10 ^ 9)

/-- The signed 24-bit mantissa of a `GET_FREQ_DELTA` reply. -/
def deltaMantissa (buf : Fin 4 → UInt8) : Int32 :=
  (buf 3).toInt8.toInt32 <<< 16 ||| (buf 2).toUInt32.toInt32 <<< 8 ||| (buf 1).toUInt32.toInt32

namespace Device

variable (d : Device)

/-- The IF shift in force. -/
def ifShift : ℚ := if d.enableDsp ≠ 0 ∧ d.isLowIf = 0 then defaultIfShift else 0

/-- The lowest frequency of the local oscillator in the current architecture. -/
def loLowKhz : UInt32 := if d.isLowIf ≠ 0 then minLowIfLo else minZeroIfLo

/-- The last assignments of `airspyhf_set_freq_double`. -/
def finishTuning (freqHz : ℚ) (freqKhz : UInt32) : Device :=
  { d with
    freqHz := freqHz
    freqShift := adjustedFreqHz d.calibrationPpb freqHz - freqKhz.toNat * 10 ^ 3 + d.freqDeltaHz }

end Device

/-- `d'` differs from `d` in the tuning fields and the IQ balancer only. -/
structure Device.TuningFrame (d d' : Device) : Prop where
  table : d'.table = d.table
  currentSamplerate : d'.currentSamplerate = d.currentSamplerate
  isLowIf : d'.isLowIf = d.isLowIf
  enableDsp : d'.enableDsp = d.enableDsp
  calibrationPpb : d'.calibrationPpb = d.calibrationPpb
  filterGain : d'.filterGain = d.filterGain
  stream : d'.stream = d.stream

/-- The request that tunes the local oscillator. -/
def setFreqRequest (freqKhz : UInt32) : Request := ⟨.setFreq, 0, 0, C.beBytes freqKhz, 4⟩

/-- The request for the synthesiser error. -/
def getFreqDeltaRequest : Request := ⟨.getFreqDelta, 0, 0, [], 4⟩

@[simp] theorem setFreqRequest_command (k : UInt32) : (setFreqRequest k).command = .setFreq := rfl
@[simp] theorem getFreqDeltaRequest_command : getFreqDeltaRequest.command = .getFreqDelta := rfl

theorem setFreqRequest_payload (k : UInt32) :
    C.ofBeBytes (setFreqRequest k).payload = k.toNat :=
  C.ofBeBytes_beBytes k

theorem setFreq_complete_iff {k : UInt32} {r : Reply} (hs : ¬ C.ltSizeT (r.result 4) 4) :
    (⟨setFreqRequest k, r⟩ : Exchange).Complete ↔ ¬ r.Failed := by
  refine ⟨Exchange.Complete.not_failed, ?_⟩
  intro hf
  exact ((Reply.not_ltSizeT_result_iff (by norm_num)).1 hs).resolve_left hf

theorem not_complete_setFreq {k : UInt32} {r : Reply} (hs : C.ltSizeT (r.result 4) 4) :
    ¬ (⟨setFreqRequest k, r⟩ : Exchange).Complete := by
  have h : r.result 4 ≠ 4 := Reply.not_complete_of_short (by norm_num) hs
  exact h

/-- The bytes of the local oscillator frequency in the request buffer. -/
def freqBuffer (freqKhz : UInt32) : Fin 4 → UInt8 := fun i => (C.beBytes freqKhz).getD i 0

/-- `airspyhf_set_lib_dsp`. -/
def setLibDsp (flag : UInt8) (w : World) : Status × World :=
  (.success, w.update fun d => { d with enableDsp := flag })

namespace Target

variable (T : Target)

/-- The frequency of the local oscillator for the tuned frequency `freqHz`. -/
def loKhz (d : Device) (freqHz : ℚ) : UInt32 :=
  let rounded := T.toUInt32
    (C.round ((adjustedFreqHz d.calibrationPpb freqHz + d.ifShift) * (1 / 10 ^ 3)) : ℤ)
  if rounded < d.loLowKhz then d.loLowKhz else rounded

/-- The synthesiser error in a `GET_FREQ_DELTA` reply. -/
def decodeDelta (buf : Fin 4 → UInt8) : ℚ :=
  (deltaMantissa buf).toInt * 10 ^ 3 / T.shl1 (buf 0).toNat

/-- Ask for the synthesiser error; `buf` is the contents of the caller's buffer. -/
def getFreqDelta (buf : Fin 4 → UInt8) (w : World) : World :=
  let e := w.exchange getFreqDeltaRequest
  let w := w.issue getFreqDeltaRequest
  if C.toSizeT e.result = 4 then
    w.update fun d => { d with freqDeltaHz := T.decodeDelta (e.reply.fill 4 buf) }
  else w

/-- What `airspyhf_set_freq_double` does after the receiver took the new frequency. -/
def retuned (freqKhz : UInt32) (w : World) : World :=
  (T.getFreqDelta (freqBuffer freqKhz) (w.update fun d => { d with freqKhz := freqKhz })).update
    fun d => { d with iqBalancer := .setOptimalPoint d.optimalPoint }

/-- `airspyhf_set_freq_double`. -/
def setFreqDouble (freqHz : ℚ) (w : World) : Status × World :=
  let freqKhz := T.loKhz w.device freqHz
  if w.device.freqKhz ≠ freqKhz then
    if C.ltSizeT (w.exchange (setFreqRequest freqKhz)).result 4 then
      -- nothing is stored, although the calibration may have changed before
      (.error, w.issue (setFreqRequest freqKhz))
    else
      let w := T.retuned freqKhz (w.issue (setFreqRequest freqKhz))
      (.success, w.update fun d => d.finishTuning freqHz freqKhz)
  else
    (.success, w.update fun d => d.finishTuning freqHz freqKhz)

/-- `airspyhf_set_freq`. -/
def setFreq (freqHz : UInt32) (w : World) : Status × World := T.setFreqDouble freqHz.toNat w

/-- `airspyhf_set_calibration`. -/
def setCalibration (ppb : Int32) (w : World) : Status × World :=
  T.setFreqDouble w.device.freqHz (w.update fun d => { d with calibrationPpb := ppb })

/-! ### What a call can do -/

/-- A call with the frequency `freqHz` sends a new frequency to the receiver. -/
def Retunes (d : Device) (freqHz : ℚ) : Prop := d.freqKhz ≠ T.loKhz d freqHz

instance (d : Device) (freqHz : ℚ) : Decidable (T.Retunes d freqHz) :=
  inferInstanceAs (Decidable (_ ≠ _))

/-- The synthesiser error known after the reply `e` to the request for it. -/
def deltaAfter (buf : Fin 4 → UInt8) (e : Exchange) (freqDeltaHz : ℚ) : ℚ :=
  if C.toSizeT e.result = 4 then T.decodeDelta (e.reply.fill 4 buf) else freqDeltaHz

theorem deltaAfter_of_complete (buf : Fin 4 → UInt8) (r : Reply) (freqDeltaHz : ℚ)
    (h : r.result 4 = 4) :
    T.deltaAfter buf ⟨getFreqDeltaRequest, r⟩ freqDeltaHz = T.decodeDelta fun i => r.data i := by
  have he : (⟨getFreqDeltaRequest, r⟩ : Exchange).result = 4 := h
  rw [deltaAfter, he, if_pos (by decide), Reply.fill_of_complete h]

/-- The device after the receiver took the new frequency and answered `e` to the request for the
synthesiser error. -/
def retunedDevice (d : Device) (freqKhz : UInt32) (e : Exchange) : Device :=
  { d with
    freqKhz := freqKhz
    freqDeltaHz := T.deltaAfter (freqBuffer freqKhz) e d.freqDeltaHz
    iqBalancer := .setOptimalPoint d.optimalPoint }

theorem retuned_eq (freqKhz : UInt32) (w : World) :
    T.retuned freqKhz w = w.advance [w.exchange getFreqDeltaRequest]
      (T.retunedDevice w.device freqKhz (w.exchange getFreqDeltaRequest)) := by
  simp only [retuned, getFreqDelta, retunedDevice, deltaAfter]
  by_cases h : C.toSizeT (w.exchange getFreqDeltaRequest).result = 4
  · rw [if_pos h, if_pos (by exact h)]; rfl
  · rw [if_neg h, if_neg (by exact h)]; rfl

/-- Everything a call of `airspyhf_set_freq_double` can do: its result, the requests it issues
(most recent first) and the device it leaves. -/
inductive TuneRun (T : Target) (freqHz : ℚ) (w : World) :
    Status → List Exchange → Device → Prop
  /-- Nothing needs to be sent. -/
  | kept (h : ¬ T.Retunes w.device freqHz) :
      TuneRun T freqHz w .success [] (w.device.finishTuning freqHz (T.loKhz w.device freqHz))
  /-- The new frequency comes back short: nothing else happens. -/
  | refused (h : T.Retunes w.device freqHz) (hs : C.ltSizeT ((w.bus w.log.length).result 4) 4) :
      TuneRun T freqHz w .error
        [⟨setFreqRequest (T.loKhz w.device freqHz), w.bus w.log.length⟩] w.device
  /-- The new frequency passes the check, and the synthesiser error is asked for. -/
  | sent (h : T.Retunes w.device freqHz) (hs : ¬ C.ltSizeT ((w.bus w.log.length).result 4) 4) :
      TuneRun T freqHz w .success
        [⟨getFreqDeltaRequest, w.bus (w.log.length + 1)⟩,
          ⟨setFreqRequest (T.loKhz w.device freqHz), w.bus w.log.length⟩]
        ((T.retunedDevice w.device (T.loKhz w.device freqHz)
          ⟨getFreqDeltaRequest, w.bus (w.log.length + 1)⟩).finishTuning freqHz
            (T.loKhz w.device freqHz))

theorem setFreqDouble_run (T : Target) (freqHz : ℚ) (w : World) :
    ∃ status es d, T.setFreqDouble freqHz w = (status, w.advance es d) ∧
      T.TuneRun freqHz w status es d := by
  unfold setFreqDouble
  by_cases h : T.Retunes w.device freqHz
  · rw [if_pos (c := w.device.freqKhz ≠ T.loKhz w.device freqHz) h]
    by_cases hs : C.ltSizeT (w.exchange (setFreqRequest (T.loKhz w.device freqHz))).result 4
    · rw [if_pos hs]
      exact ⟨_, _, _, rfl, .refused h hs⟩
    · rw [if_neg hs, retuned_eq]
      exact ⟨_, _, _, rfl, .sent h hs⟩
  · rw [if_neg (c := w.device.freqKhz ≠ T.loKhz w.device freqHz) h]
    exact ⟨_, _, _, rfl, .kept h⟩

theorem TuneRun.frame {freqHz : ℚ} {w : World} {status : Status} {es : List Exchange} {d : Device}
    (h : T.TuneRun freqHz w status es d) : w.device.TuningFrame d := by
  cases h <;> constructor <;> rfl

theorem setFreq_currentSamplerate (freqHz : UInt32) (w : World) :
    (T.setFreq freqHz w).2.device.currentSamplerate = w.device.currentSamplerate := by
  obtain ⟨status, es, d, heq, hrun⟩ := T.setFreqDouble_run freqHz.toNat w
  rw [setFreq, heq]
  exact hrun.frame.currentSamplerate

theorem loKhz_of_frame {d d' : Device} (h : d.TuningFrame d') (freqHz : ℚ) :
    T.loKhz d' freqHz = T.loKhz d freqHz := by
  have hshift : d'.ifShift = d.ifShift := by
    rw [Device.ifShift, Device.ifShift, h.enableDsp, h.isLowIf]
  have hlow : d'.loLowKhz = d.loLowKhz := by
    rw [Device.loLowKhz, Device.loLowKhz, h.isLowIf]
  simp only [loKhz, hshift, hlow, h.calibrationPpb]

theorem TuneRun.stored {freqHz : ℚ} {w : World} {status : Status} {es : List Exchange} {d : Device}
    (h : T.TuneRun freqHz w status es d) :
    d.calibrationVctcxo = w.device.calibrationVctcxo ∧
      d.frontendOptions = w.device.frontendOptions := by
  cases h <;> exact ⟨rfl, rfl⟩

theorem TuneRun.commands {freqHz : ℚ} {w : World} {status : Status} {es : List Exchange}
    {d : Device} (h : T.TuneRun freqHz w status es d) :
    ∀ e ∈ es, e.request.command = .setFreq ∨ e.request.command = .getFreqDelta := by
  cases h with
  | kept => exact List.forall_mem_nil _
  | refused => exact List.forall_mem_singleton.2 (.inl rfl)
  | sent => exact List.forall_mem_cons.2 ⟨.inr rfl, List.forall_mem_singleton.2 (.inl rfl)⟩

end Target

end AirspyHF
