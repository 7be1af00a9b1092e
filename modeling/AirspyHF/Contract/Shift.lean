import AirspyHF.Device.Calls

/-!
# The mixer shift agrees with the tuning fields

The mixer moves the tuned frequency to zero: `freq_shift` is the distance from the local
oscillator, corrected by the synthesiser error (`Device.ShiftAgrees`).  Every call that ends in the
last assignments of `airspyhf_set_freq_double` establishes the equation, and a call that leaves
before it wrote one of the five fields keeps it.

Two calls write a field and may then return before those assignments.
`airspyhf_set_calibration` stores the calibration before it retunes, and `airspyhf_set_samplerate`
records the raised local oscillator before it selects the rate.  `Target.KeepsShift` is the exact
condition under which a call keeps the equation nevertheless (`shiftAgrees_step_iff`).
-/

namespace AirspyHF

namespace Device

/-- The mixer shift is that of the tuning fields. -/
def ShiftAgrees (d : Device) : Prop :=
  d.freqShift =
    d.freqHz * (10 ^ 9 + d.calibrationPpb.toInt) / 10 ^ 9 - 1000 * d.freqKhz.toNat + d.freqDeltaHz

instance (d : Device) : Decidable d.ShiftAgrees := inferInstanceAs (Decidable (_ = _))

theorem shiftAgrees_finishTuning {d : Device} (freqHz : ℚ) {k : UInt32} (h : d.freqKhz = k) :
    (d.finishTuning freqHz k).ShiftAgrees := by
  simp only [ShiftAgrees, finishTuning, adjustedFreqHz, h]
  ring

theorem shiftAgrees_calibrate_iff {d : Device} (hd : d.ShiftAgrees) (ppb : Int32) :
    ({ d with calibrationPpb := ppb } : Device).ShiftAgrees ↔
      d.freqHz = 0 ∨ ppb = d.calibrationPpb := by
  rw [ShiftAgrees] at hd ⊢
  simp only [hd, ← Int32.toInt_inj]
  constructor
  · intro h
    have hz : d.freqHz * ((ppb.toInt : ℚ) - d.calibrationPpb.toInt) = 0 := by linarith
    exact (mul_eq_zero.1 hz).imp_right fun h => by exact_mod_cast sub_eq_zero.1 h
  · rintro (h | h) <;> simp [h]

theorem not_shiftAgrees_raise {d : Device} (hd : d.ShiftAgrees) (hb : d.BelowZeroIf) :
    ¬ ({ d with freqKhz := minZeroIfLo } : Device).ShiftAgrees := by
  intro h
  have hlt : d.freqKhz.toNat < minZeroIfLo.toNat := UInt32.lt_iff_toNat_lt.1 hb.2
  simp only [ShiftAgrees] at h hd
  rw [hd] at h
  have heq : (d.freqKhz.toNat : ℚ) = minZeroIfLo.toNat := by linarith
  exact hlt.ne (by exact_mod_cast heq)

end Device

/-! ### The condition on the replies -/

/-- A new calibration is followed by the last assignments of `airspyhf_set_freq_double`, or does
not matter. -/
def Target.CalibrationFinishes (T : Target) (ppb : Int32) (w : World) : Prop :=
  T.Retunes { w.device with calibrationPpb := ppb } w.device.freqHz →
    C.ltSizeT ((w.bus w.log.length).result 4) 4 →
      w.device.freqHz = 0 ∨ ppb = w.device.calibrationPpb

/-- If the local oscillator is raised for the rate at index `i`, the last assignments of
`airspyhf_set_freq_double` are reached. -/
def Target.RaiseFinishes (T : Target) (i : ℕ) (w : World) : Prop :=
  ∀ h : i < w.device.table.count.toNat, (w.device.selectRate i h).BelowZeroIf →
    ¬ C.ltSizeT ((w.bus w.log.length).result 4) 4 →
      ¬ (w.bus (w.log.length + 1)).Failed ∧
        (T.Retunes { w.device.selectRate i h with freqKhz := minZeroIfLo } w.device.freqHz →
          ¬ C.ltSizeT ((w.bus (w.log.length + 3)).result 4) 4)

/-- **The exact condition under which a call keeps the equation.** -/
def Target.KeepsShift (T : Target) (w : World) : Call → Prop
  | .setting (.setCalibration ppb) => T.CalibrationFinishes ppb w
  | .setting (.setSamplerate samplerate) => T.RaiseFinishes (w.device.table.resolve samplerate) w
  | _ => True

variable {T : Target} {w : World}

/-! ### One call -/

theorem Target.TuneRun.shiftAgrees_iff {freqHz : ℚ} {status : Status} {es : List Exchange}
    {d : Device} (h : T.TuneRun freqHz w status es d) :
    d.ShiftAgrees ↔ (T.Retunes w.device freqHz →
      C.ltSizeT ((w.bus w.log.length).result 4) 4 → w.device.ShiftAgrees) := by
  cases h with
  | kept h =>
    have hk : w.device.freqKhz = T.loKhz w.device freqHz := not_not.1 h
    exact iff_of_true (Device.shiftAgrees_finishTuning freqHz hk) fun h' => absurd h' h
  | refused h hs => exact ⟨fun hd _ _ => hd, fun hd => hd h hs⟩
  | sent h hs =>
    exact iff_of_true (Device.shiftAgrees_finishTuning freqHz rfl) fun _ hs' => absurd hs' hs

theorem setFreqDouble_shiftAgrees_iff (freqHz : ℚ) :
    (T.setFreqDouble freqHz w).2.device.ShiftAgrees ↔ (T.Retunes w.device freqHz →
      C.ltSizeT ((w.bus w.log.length).result 4) 4 → w.device.ShiftAgrees) := by
  obtain ⟨status, es, d, hx, h⟩ := T.setFreqDouble_run freqHz w
  rw [hx]
  exact h.shiftAgrees_iff

theorem Target.SamplerateRun.shiftAgrees_iff {i : ℕ} {status : Status} {es : List Exchange}
    {d : Device} (h : T.SamplerateRun i w status es d) (hw : w.device.ShiftAgrees) :
    d.ShiftAgrees ↔ T.RaiseFinishes i w := by
  cases h with
  | invalid h => exact iff_of_true hw fun h' => absurd h' h
  | notRaised h hb hs => exact iff_of_true hw fun _ _ hs' => absurd hs hs'
  | rejected h es₀ d₀ hr hf =>
    cases hr with
    | kept hb => exact iff_of_true hw fun _ hb' => absurd hb' hb
    | raised hb hs =>
      refine iff_of_false (Device.not_shiftAgrees_raise ?_ hb) fun h' => (h' h hb hs).1 hf
      exact hw
  | switched h es₀ d₀ hr hf status es d ht =>
    rw [ht.shiftAgrees_iff]
    cases hr with
    | kept hb => exact iff_of_true (fun _ _ => hw) fun _ hb' => absurd hb' hb
    | raised hb hs =>
      have hbreak := Device.not_shiftAgrees_raise (d := (selected w i h).device) hw hb
      constructor
      · exact fun h' _ _ _ => ⟨hf, fun hk hs' => hbreak (h' hk hs')⟩
      · exact fun h' hk hs' => absurd hs' ((h' h hb hs).2 hk)

/-- One call keeps the equation exactly when it satisfies `Target.KeepsShift`. -/
theorem shiftAgrees_step_iff (c : Call) (hw : w.device.ShiftAgrees) :
    (T.exec c w).2.device.ShiftAgrees ↔ T.KeepsShift w c := by
  cases c with
  | setting s =>
    cases s with
    | setFreqDouble freqHz =>
      exact iff_of_true ((setFreqDouble_shiftAgrees_iff freqHz).2 fun _ _ => hw) trivial
    | setFreq freqHz =>
      exact iff_of_true ((setFreqDouble_shiftAgrees_iff freqHz.toNat).2 fun _ _ => hw) trivial
    | setCalibration ppb =>
      refine (setFreqDouble_shiftAgrees_iff (w := w.update _) w.device.freqHz).trans ?_
      exact forall₂_congr fun _ _ => Device.shiftAgrees_calibrate_iff hw ppb
    | setSamplerate samplerate =>
      obtain ⟨status, es, d, hx, h⟩ := T.setSamplerate_run samplerate w
      change (T.setSamplerate samplerate w).2.device.ShiftAgrees ↔ _
      rw [hx]
      exact h.shiftAgrees_iff hw
    | setLibDsp flag => exact iff_of_true hw trivial
  | start callback ctx o =>
    obtain ⟨stream, hd⟩ := start_device callback ctx o w
    refine iff_of_true ?_ trivial
    change (AirspyHF.start callback ctx o w).2.device.ShiftAgrees
    rw [hd]
    exact hw
  | stop others =>
    obtain ⟨stream, hd⟩ := stop_device others w
    refine iff_of_true ?_ trivial
    change (AirspyHF.stop others w).2.device.ShiftAgrees
    rw [hd]
    exact hw
  | flashConfiguration =>
    obtain ⟨status, es, hx, -⟩ := flashConfiguration_run w
    refine iff_of_true ?_ trivial
    change (AirspyHF.flashConfiguration w).2.device.ShiftAgrees
    rw [hx]
    exact hw

theorem shiftAgrees_of_opened (hw : w.Opened) : w.device.ShiftAgrees := by
  simp [Device.ShiftAgrees, hw.freqHz, hw.freqKhz, hw.freqDeltaHz, hw.freqShift]

/-! ### Runs -/

/-- **The mixer shift agrees with the tuning fields in every state of a run, exactly when every
call satisfies `Target.KeepsShift`.** -/
theorem always_shiftAgrees_iff (T : Target) {w : World} (hw : w.Opened) (calls : List Call) :
    T.calls.Always (fun w => w.device.ShiftAgrees) w calls ↔ T.calls.Meets T.KeepsShift w calls :=
  Machine.always_iff_meets (P := fun w : World => w.device.ShiftAgrees) (F := fun _ _ => True)
    (G := T.KeepsShift) (fun _ c hw _ => shiftAgrees_step_iff c hw) (Machine.meets_true _ _)
    (shiftAgrees_of_opened hw)

/-- A receiver whose third reply is short. -/
def curt : World := .fresh .fallback fun n => if n = 2 then .empty else .full fun _ => 0

/-- The shift agrees after tuning to 10 MHz and calibrating in full. -/
theorem curt_always_shiftAgrees : Target.x8664.calls.Always (fun w => w.device.ShiftAgrees) curt
    [.setting (.setFreqDouble 10000000), .setting (.setCalibration 100)] := by
  refine (always_shiftAgrees_iff _ (World.opened_fresh (by decide) _) _).2 ?_
  simp only [Target.calls, Machine.ofFun_meets_cons, Machine.ofFun_meets_nil, Target.KeepsShift,
    Target.CalibrationFinishes]
  decide +kernel

/-- A calibration whose tuning request comes back short is stored, and the shift stays. -/
theorem curt_shifted :
    ¬ Target.x8664.calls.Always (fun w => w.device.ShiftAgrees) curt
      [.setting (.setFreqDouble 10000000), .setting (.setCalibration 1000000)] := by
  decide +kernel

end AirspyHF
