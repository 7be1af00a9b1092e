import AirspyHF.Device.Tuning

/-!
# Selecting a sample rate

`airspyhf_set_samplerate` resolves its argument to an index of the rate table, stores the rate
and the architecture found there, and then issues up to five requests: the receiver is first
raised to the lowest frequency a zero-IF rate allows (`raiseLo`), then told the index, asked for
the gain of the new filter, and retuned for the new architecture.

`Target.SamplerateRun` lists everything a call can do (`Target.setSamplerate_run`).
-/

namespace AirspyHF

/-- The request that selects the sample rate at the index. -/
def setSamplerateRequest (samplerate : ℕ) : Request :=
  ⟨.setSamplerate, 0, UInt16.ofNat samplerate, [], 0⟩

/-- The request for the gain of the filter in use. -/
def getFilterGainRequest : Request := ⟨.getFilterGain, 0, 0, [], 1⟩

@[simp] theorem setSamplerateRequest_command (i : ℕ) :
    (setSamplerateRequest i).command = .setSamplerate := rfl
@[simp] theorem getFilterGainRequest_command : getFilterGainRequest.command = .getFilterGain := rfl

/-- The local oscillator must be raised before a zero-IF rate is selected. -/
def Device.BelowZeroIf (d : Device) : Prop := d.isLowIf = 0 ∧ d.freqKhz < minZeroIfLo

instance (d : Device) : Decidable d.BelowZeroIf := inferInstanceAs (Decidable (_ ∧ _))

/-- Store the rate and the architecture at the index. -/
def Device.selectRate (d : Device) (i : ℕ) (h : i < d.table.count.toNat) : Device :=
  { d with currentSamplerate := d.table.rate i h, isLowIf := d.table.architecture i h }

/-- The first request of `airspyhf_set_samplerate`: raise the local oscillator to the lowest
frequency a zero-IF rate allows. -/
def raiseLo (w : World) : Status × World :=
  if w.device.BelowZeroIf then
    let e := w.exchange (setFreqRequest minZeroIfLo)
    let w := w.issue (setFreqRequest minZeroIfLo)
    if C.ltSizeT e.result 4 then (.error, w)
    else (.success, w.update fun d => { d with freqKhz := minZeroIfLo })
  else (.success, w)

namespace Target

variable (T : Target)

/-- The gain read back after a rate was selected. -/
def filterGain (e : Exchange) : ℚ :=
  if C.toSizeT e.result = 1 then T.powf 10 ((e.reply.data 0).toNat * (-5 / 100)) else 1

/-- Ask for the gain of the filter in use. -/
def getFilterGain (w : World) : World :=
  let e := w.exchange getFilterGainRequest
  (w.issue getFilterGainRequest).update fun d => { d with filterGain := T.filterGain e }

/-- The requests of `airspyhf_set_samplerate` after the local oscillator was raised. -/
def switchRate (samplerate : ℕ) (w : World) : Status × World :=
  let e := w.exchange (setSamplerateRequest samplerate)
  let w := w.issue (setSamplerateRequest samplerate)
  if e.result ≠ 0 then (.error, w)
  else
    let w := T.getFilterGain w
    -- the result of the retune is dropped
    (.success, (T.setFreqDouble w.device.freqHz w).2)

/-- `airspyhf_set_samplerate`. -/
def setSamplerate (samplerate : UInt32) (w : World) : Status × World :=
  let i := w.device.table.resolve samplerate
  if h : i < w.device.table.count.toNat then
    match raiseLo { w with device := w.device.selectRate i h } with
    | (.success, w) => T.switchRate i w
    | (status, w) => (status, w)
  else (.error, w)

/-! ### What a call can do -/

/-- Everything the first request can do when it does not end the call: the requests issued and the
device left. -/
inductive RaiseRun (w : World) : List Exchange → Device → Prop
  /-- The local oscillator is high enough. -/
  | kept (h : ¬ w.device.BelowZeroIf) : RaiseRun w [] w.device
  /-- It was raised. -/
  | raised (h : w.device.BelowZeroIf) (hs : ¬ C.ltSizeT ((w.bus w.log.length).result 4) 4) :
      RaiseRun w [⟨setFreqRequest minZeroIfLo, w.bus w.log.length⟩]
        { w.device with freqKhz := minZeroIfLo }

/-- The world in which the rate and the architecture at the index have been stored. -/
def selected (w : World) (i : ℕ) (h : i < w.device.table.count.toNat) : World :=
  w.advance [] (w.device.selectRate i h)

/-- The device after the gain was asked for and `e` was the answer. -/
def gainDevice (d : Device) (e : Exchange) : Device := { d with filterGain := T.filterGain e }

/-- Everything a call of `airspyhf_set_samplerate` for the index `i` can do: its result, the
requests it issues (most recent first) and the device it leaves. -/
inductive SamplerateRun (T : Target) (i : ℕ) (w : World) : Status → List Exchange → Device → Prop
  /-- There is no such index. -/
  | invalid (h : ¬ i < w.device.table.count.toNat) : SamplerateRun T i w .error [] w.device
  /-- The local oscillator could not be raised. -/
  | notRaised (h : i < w.device.table.count.toNat) (hb : (selected w i h).device.BelowZeroIf)
      (hs : C.ltSizeT ((w.bus w.log.length).result 4) 4) :
      SamplerateRun T i w .error [⟨setFreqRequest minZeroIfLo, w.bus w.log.length⟩]
        (w.device.selectRate i h)
  /-- The receiver did not take the index. -/
  | rejected (h : i < w.device.table.count.toNat) (es₀ : List Exchange) (d₀ : Device)
      (hr : RaiseRun (selected w i h) es₀ d₀)
      (hf : (w.bus (es₀ ++ w.log).length).Failed) :
      SamplerateRun T i w .error (⟨setSamplerateRequest i, w.bus (es₀ ++ w.log).length⟩ :: es₀) d₀
  /-- The receiver took the index; the result of the last retune is dropped. -/
  | switched (h : i < w.device.table.count.toNat) (es₀ : List Exchange) (d₀ : Device)
      (hr : RaiseRun (selected w i h) es₀ d₀)
      (hf : ¬ (w.bus (es₀ ++ w.log).length).Failed) (status : Status) (es : List Exchange)
      (d : Device)
      (ht : T.TuneRun d₀.freqHz
        (w.advance
          (⟨getFilterGainRequest, w.bus ((es₀ ++ w.log).length + 1)⟩ ::
            ⟨setSamplerateRequest i, w.bus (es₀ ++ w.log).length⟩ :: es₀)
          (T.gainDevice d₀ ⟨getFilterGainRequest, w.bus ((es₀ ++ w.log).length + 1)⟩))
        status es d) :
      SamplerateRun T i w .success
        (es ++ ⟨getFilterGainRequest, w.bus ((es₀ ++ w.log).length + 1)⟩ ::
          ⟨setSamplerateRequest i, w.bus (es₀ ++ w.log).length⟩ :: es₀) d

variable {T}

theorem RaiseRun.device_eq {w : World} {es : List Exchange} {d : Device} (h : RaiseRun w es d) :
    ∃ k, d = { w.device with freqKhz := k } := by
  cases h <;> exact ⟨_, rfl⟩

theorem setSamplerate_result_ne_zero_iff (i : ℕ) (w : World) :
    (w.exchange (setSamplerateRequest i)).result ≠ 0 ↔ (w.bus w.log.length).Failed := by
  have := Exchange.complete_iff_of_length_zero (e := w.exchange (setSamplerateRequest i)) rfl
  exact (not_congr this).trans not_not

theorem switchRate_run {i : ℕ} {w : World} {es₀ : List Exchange} {d₀ : Device}
    (h : i < w.device.table.count.toNat) (hr : RaiseRun (selected w i h) es₀ d₀) :
    ∃ status es d, T.switchRate i (w.advance es₀ d₀) = (status, w.advance es d) ∧
      T.SamplerateRun i w status es d := by
  by_cases hf : (w.bus (es₀ ++ w.log).length).Failed
  · have hne := (setSamplerate_result_ne_zero_iff i (w.advance es₀ d₀)).2 hf
    simp only [switchRate, if_pos hne]
    exact ⟨_, _, _, rfl, .rejected h es₀ d₀ hr hf⟩
  · have heq := mt (setSamplerate_result_ne_zero_iff i (w.advance es₀ d₀)).1 hf
    simp only [switchRate, if_neg heq]
    obtain ⟨status, es, d, hx, ht⟩ := T.setFreqDouble_run d₀.freqHz
      (w.advance
        (⟨getFilterGainRequest, w.bus ((es₀ ++ w.log).length + 1)⟩ ::
          ⟨setSamplerateRequest i, w.bus (es₀ ++ w.log).length⟩ :: es₀)
        (T.gainDevice d₀ ⟨getFilterGainRequest, w.bus ((es₀ ++ w.log).length + 1)⟩))
    rw [World.advance_advance] at hx
    exact ⟨_, _, _, congrArg (Prod.mk Status.success) (congrArg Prod.snd hx),
      .switched h es₀ d₀ hr hf status es d ht⟩

theorem setSamplerate_run (T : Target) (samplerate : UInt32) (w : World) :
    ∃ status es d, T.setSamplerate samplerate w = (status, w.advance es d) ∧
      T.SamplerateRun (w.device.table.resolve samplerate) w status es d := by
  unfold setSamplerate
  by_cases h : w.device.table.resolve samplerate < w.device.table.count.toNat
  · simp only [dif_pos h]
    by_cases hb : (selected w _ h).device.BelowZeroIf
    · by_cases hs : C.ltSizeT ((w.bus w.log.length).result 4) 4
      · have hraise : raiseLo { w with device := w.device.selectRate _ h } = (.error, _) :=
          (if_pos hb).trans (if_pos hs)
        rw [hraise]
        exact ⟨_, _, _, rfl, .notRaised h hb hs⟩
      · have hraise : raiseLo { w with device := w.device.selectRate _ h } = (.success, _) :=
          (if_pos hb).trans (if_neg hs)
        rw [hraise]
        exact switchRate_run h (.raised hb hs)
    · have hraise : raiseLo { w with device := w.device.selectRate _ h } = (.success, _) :=
        if_neg hb
      rw [hraise]
      exact switchRate_run h (.kept hb)
  · simp only [dif_neg h]
    exact ⟨_, _, _, rfl, .invalid h⟩

theorem setSamplerate_currentSamplerate {samplerate : UInt32} {w w' : World}
    (h : T.setSamplerate samplerate w = (.success, w')) :
    w.device.table.rates[w.device.table.resolve samplerate]? = some w'.device.currentSamplerate := by
  obtain ⟨status, es, d, heq, hrun⟩ := T.setSamplerate_run samplerate w
  obtain ⟨rfl, rfl⟩ := Prod.mk.inj (heq.symm.trans h)
  cases hrun with
  | switched hi es₀ d₀ hraise hf status es d htune =>
    obtain ⟨k, rfl⟩ := hraise.device_eq
    rw [RateTable.getElem?_rates hi]
    exact congrArg some htune.frame.currentSamplerate.symm

end Target

end AirspyHF
