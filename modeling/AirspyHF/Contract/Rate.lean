import AirspyHF.Device.Calls

/-!
# Driver and device agree on the sample rate

The device works at the rate of the last `SET_SAMPLERATE` it accepted (`deviceIndex`); the driver
records a rate and an architecture.  `RateAgrees` says that these are the entries of the rate table
at the index of the device.

`airspyhf_set_samplerate` records the new rate and architecture before it issues its requests, and
returns without restoring them when a request fails; it also passes an index of up to 32 bits to
the device in a 16-bit field.  `Target.KeepsRate` is the exact condition under which a call keeps
the agreement, and keeps its record when it fails (`rateAgrees_step_iff`).
-/

namespace AirspyHF

/-- A rate selection the device accepted. -/
def Exchange.SelectsRate (e : Exchange) : Prop := e.request.command = .setSamplerate ∧ e.Complete

instance (e : Exchange) : Decidable e.SelectsRate := inferInstanceAs (Decidable (_ ∧ _))

/-- The rate index of the device: that of the last selection it accepted, at first `0`. -/
def deviceIndex (log : List Exchange) : ℕ :=
  (log.find? fun e => e.SelectsRate).elim 0 fun e => e.request.index.toNat

/-- Driver and device agree on the sample rate. -/
def RateAgrees (w : World) : Prop := w.device.AtIndex (deviceIndex w.log)

instance (w : World) : Decidable (RateAgrees w) := inferInstanceAs (Decidable (w.device.AtIndex _))

/-- A rate change that fails leaves the rate, the architecture and the gain as they were. -/
def Target.KeepsOnError (T : Target) (w : World) : Setting → Prop
  | .setSamplerate samplerate =>
    (T.setSamplerate samplerate w).1 = .error →
      (T.setSamplerate samplerate w).2.device.currentSamplerate = w.device.currentSamplerate ∧
      (T.setSamplerate samplerate w).2.device.isLowIf = w.device.isLowIf ∧
      (T.setSamplerate samplerate w).2.device.filterGain = w.device.filterGain
  | _ => True

/-! ### The condition on the replies -/

/-- The requests of a rate change to index `i` get as far as the selection, and the device accepts
it. -/
def RateAccepted (w : World) (i : ℕ) (h : i < w.device.table.count.toNat) : Prop :=
  if (w.device.selectRate i h).BelowZeroIf then
    ¬ C.ltSizeT ((w.bus w.log.length).result 4) 4 ∧ ¬ (w.bus (w.log.length + 1)).Failed
  else ¬ (w.bus w.log.length).Failed

instance (w : World) (i : ℕ) (h : i < w.device.table.count.toNat) :
    Decidable (RateAccepted w i h) := by
  unfold RateAccepted
  infer_instance

/-- A rate change to a valid index is accepted, and the index means the same rate when it is cut
to 16 bits; or it asks for the rate already recorded. -/
def RateHonest (w : World) (i : ℕ) : Prop :=
  ∀ h : i < w.device.table.count.toNat,
    if RateAccepted w i h then (w.device.selectRate i h).AtIndex (i % 2 ^ 16)
    else w.device.table.rate i h = w.device.currentSamplerate ∧
      w.device.table.architecture i h = w.device.isLowIf

/-- **The exact condition under which a call keeps the agreement.** -/
def Target.KeepsRate (_T : Target) (w : World) : Setting → Prop
  | .setSamplerate samplerate => RateHonest w (w.device.table.resolve samplerate)
  | _ => True

/-! ### The log -/

theorem deviceIndex_cons_of_selects {e : Exchange} {log : List Exchange} (h : e.SelectsRate) :
    deviceIndex (e :: log) = e.request.index.toNat := by
  simp [deviceIndex, h]

theorem deviceIndex_append {es log : List Exchange} (h : ∀ e ∈ es, ¬ e.SelectsRate) :
    deviceIndex (es ++ log) = deviceIndex log := by
  have hn : es.find? (fun e => e.SelectsRate) = none := by simpa using h
  simp [deviceIndex, List.find?_append, hn]

variable {T : Target} {w : World}

theorem Target.TuneRun.not_selectsRate {freqHz : ℚ} {status : Status} {es : List Exchange}
    {d : Device} (h : T.TuneRun freqHz w status es d) : ∀ e ∈ es, ¬ e.SelectsRate := by
  cases h <;> simp [Exchange.SelectsRate]

theorem Target.RaiseRun.not_selectsRate {es : List Exchange} {d : Device} (h : RaiseRun w es d) :
    ∀ e ∈ es, ¬ e.SelectsRate := by
  cases h <;> simp [Exchange.SelectsRate]

/-! ### One call -/

theorem RateAgrees.advance {es : List Exchange} {d : Device} (hw : RateAgrees w)
    (hes : ∀ e ∈ es, ¬ e.SelectsRate) (hf : w.device.TuningFrame d) :
    RateAgrees (w.advance es d) := by
  rw [RateAgrees, World.advance_log, deviceIndex_append hes]
  simpa [RateAgrees, Device.AtIndex, hf.table, hf.currentSamplerate, hf.isLowIf] using hw

theorem setFreqDouble_rateAgrees (freqHz : ℚ) (hw : RateAgrees w) :
    RateAgrees (T.setFreqDouble freqHz w).2 := by
  obtain ⟨status, es, d, hx, h⟩ := T.setFreqDouble_run freqHz w
  rw [hx]
  exact hw.advance h.not_selectsRate h.frame

theorem atIndex_selectRate_iff {d : Device} {i j : ℕ} (h : i < d.table.count.toNat)
    (hd : d.AtIndex j) : (d.selectRate i h).AtIndex j ↔
      d.table.rate i h = d.currentSamplerate ∧ d.table.architecture i h = d.isLowIf := by
  simp only [Device.AtIndex, Device.selectRate, hd.1, hd.2, Option.some.injEq]
  exact and_congr eq_comm eq_comm

theorem Target.RaiseRun.accepted_iff {i : ℕ} {h : i < w.device.table.count.toNat}
    {es : List Exchange} {d : Device} (hr : RaiseRun (selected w i h) es d) :
    RateAccepted w i h ↔ ¬ (w.bus (es ++ w.log).length).Failed := by
  cases hr with
  | kept hb => rw [RateAccepted, if_neg (by exact hb)]; rfl
  | raised hb hs => rw [RateAccepted, if_pos (by exact hb)]; exact and_iff_right hs

theorem Target.SamplerateRun.rateAgrees_iff {i : ℕ} {status : Status} {es : List Exchange}
    {d : Device} (h : T.SamplerateRun i w status es d) (hw : RateAgrees w) :
    (RateAgrees (w.advance es d) ∧ (status = .error →
      d.currentSamplerate = w.device.currentSamplerate ∧ d.isLowIf = w.device.isLowIf ∧
        d.filterGain = w.device.filterGain)) ↔ RateHonest w i := by
  -- a call that ends before the selection is accepted leaves the record of index `i`
  have key : ∀ (h : i < w.device.table.count.toNat) (es : List Exchange) (d : Device),
      (∀ e ∈ es, ¬ e.SelectsRate) → d.table = w.device.table →
      d.currentSamplerate = w.device.table.rate i h →
      d.isLowIf = w.device.table.architecture i h → d.filterGain = w.device.filterGain →
      ¬ RateAccepted w i h →
      ((RateAgrees (w.advance es d) ∧ (Status.error = .error →
        d.currentSamplerate = w.device.currentSamplerate ∧ d.isLowIf = w.device.isLowIf ∧
          d.filterGain = w.device.filterGain)) ↔ RateHonest w i) := by
    intro h es d hes ht hc hl hg ha
    have hagree : RateAgrees (w.advance es d) ↔
        (w.device.selectRate i h).AtIndex (deviceIndex w.log) := by
      rw [RateAgrees, World.advance_log, deviceIndex_append hes]
      simp [Device.AtIndex, Device.selectRate, ht, hc, hl]
    rw [hagree, atIndex_selectRate_iff h hw, RateHonest, forall_prop_of_true h, if_neg ha, hc, hl]
    simp [hg]
  cases h with
  | invalid h =>
    exact iff_of_true ⟨hw.advance (by simp) ⟨rfl, rfl, rfl, rfl, rfl, rfl, rfl⟩,
      fun _ => ⟨rfl, rfl, rfl⟩⟩ fun h' => absurd h' h
  | notRaised h hb hs =>
    refine key h _ _ (by simp [Exchange.SelectsRate]) rfl rfl rfl rfl ?_
    rw [RateAccepted, if_pos (by exact hb)]
    exact fun ha => ha.1 hs
  | rejected h es₀ d₀ hr hf =>
    obtain ⟨k, rfl⟩ := hr.device_eq
    refine key h _ _ ?_ rfl rfl rfl rfl fun ha => hr.accepted_iff.1 ha hf
    refine List.forall_mem_cons.2 ⟨fun hs => hs.2.not_failed hf, hr.not_selectsRate⟩
  | switched h es₀ d₀ hr hf status es d ht =>
    obtain ⟨k, rfl⟩ := hr.device_eq
    have hframe := ht.frame
    have hselect : (⟨setSamplerateRequest i, w.bus (es₀ ++ w.log).length⟩ :
        Exchange).SelectsRate := ⟨rfl, (Exchange.complete_iff_of_length_zero rfl).2 hf⟩
    -- the index on the wire has 16 bits
    have hindex : deviceIndex (es ++ ⟨getFilterGainRequest, w.bus ((es₀ ++ w.log).length + 1)⟩ ::
        ⟨setSamplerateRequest i, w.bus (es₀ ++ w.log).length⟩ :: es₀ ++ w.log) = i % 2 ^ 16 := by
      rw [List.append_assoc, deviceIndex_append ht.not_selectsRate, List.cons_append,
        ← List.singleton_append, deviceIndex_append (by simp [Exchange.SelectsRate]),
        List.cons_append, deviceIndex_cons_of_selects hselect]
      simp [setSamplerateRequest]
    rw [RateHonest, forall_prop_of_true h, if_pos (hr.accepted_iff.2 hf), and_iff_left nofun,
      RateAgrees, World.advance_log, hindex]
    simp only [Device.AtIndex, World.advance_device, hframe.table, hframe.currentSamplerate,
      hframe.isLowIf]
    rfl

/-- One call keeps the agreement, and the record if it is a rate change that fails, exactly when
it satisfies `Target.KeepsRate`. -/
theorem rateAgrees_step_iff (s : Setting) (hw : RateAgrees w) :
    RateAgrees (T.execSetting s w).2 ∧ T.KeepsOnError w s ↔ T.KeepsRate w s := by
  cases s with
  | setFreqDouble freqHz => exact iff_of_true ⟨setFreqDouble_rateAgrees freqHz hw, trivial⟩ trivial
  | setFreq freqHz =>
    exact iff_of_true ⟨setFreqDouble_rateAgrees freqHz.toNat hw, trivial⟩ trivial
  | setCalibration ppb =>
    exact iff_of_true ⟨setFreqDouble_rateAgrees (w := w.update _) w.device.freqHz hw, trivial⟩
      trivial
  | setLibDsp flag => exact iff_of_true ⟨hw, trivial⟩ trivial
  | setSamplerate samplerate =>
    obtain ⟨status, es, d, hx, h⟩ := T.setSamplerate_run samplerate w
    have hrun := h.rateAgrees_iff hw
    simp only [Target.execSetting, Target.KeepsOnError, Target.KeepsRate, hx]
    exact hrun

theorem rateAgrees_of_opened (hw : w.Opened) : RateAgrees w := by
  have hindex : deviceIndex (w.log ++ []) = deviceIndex [] :=
    deviceIndex_append fun e he hs => (hw.log e he).2 hs.1
  rw [List.append_nil] at hindex
  rw [RateAgrees, hindex]
  exact hw.atIndex

/-! ### Runs -/

/-- **Driver and device agree in every state of a run, and every rate change that fails keeps the
record, exactly when every call satisfies `Target.KeepsRate`.** -/
theorem always_rateAgrees_iff (T : Target) {w : World} (hw : w.Opened) (calls : List Setting) :
    T.settings.Always RateAgrees w calls ∧ T.settings.Meets T.KeepsOnError w calls ↔
      T.settings.Meets T.KeepsRate w calls :=
  Machine.always_and_meets_iff (P := RateAgrees) (F := fun _ _ => True) (Q := T.KeepsOnError)
    (G := T.KeepsRate) (fun _ s hw _ => rateAgrees_step_iff s hw) (Machine.meets_true _ _)
    (rateAgrees_of_opened hw)

/-- A receiver that refuses its first request. -/
def refusing : World := .fresh .twoRates fun n => if n = 0 then .noDevice else .full fun _ => 0

/-- A rate change after the refusal is recorded by both sides. -/
theorem refusing_always_rateAgrees :
    Target.x8664.settings.Always RateAgrees refusing [.setFreqDouble 10000000, .setSamplerate 1] ∧
      Target.x8664.settings.Meets (Target.x8664.KeepsOnError) refusing
        [.setFreqDouble 10000000, .setSamplerate 1] := by
  refine (always_rateAgrees_iff _ (World.opened_fresh (by decide) _) _).2 ?_
  simp only [Target.settings, Machine.ofFun_meets_cons, Machine.ofFun_meets_nil,
    Target.KeepsRate, RateHonest]
  decide +kernel

/-- A rate change that is refused is recorded by the driver. -/
theorem refusing_rateDisagrees :
    (Target.x8664.execSetting (.setSamplerate 1) refusing).1 = .error ∧
      (Target.x8664.execSetting (.setSamplerate 1) refusing).2.device.currentSamplerate = 192000 ∧
      ¬ Target.x8664.settings.Always RateAgrees refusing [.setSamplerate 1] ∧
      ¬ Target.x8664.settings.Meets Target.x8664.KeepsOnError refusing [.setSamplerate 1] := by
  simp only [Target.settings, Machine.ofFun_meets_cons, Machine.ofFun_meets_nil,
    Target.KeepsOnError]
  decide +kernel

end AirspyHF
