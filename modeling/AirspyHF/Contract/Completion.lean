import AirspyHF.Device.Calls

/-!
# Success means that the device was told

A configuration call keeps its promise (`Kept`) when it reports success only if every request that
commits a setting was complete, and when it changes its record of the local oscillator only after
a complete request.

The checks of the driver compare the `int` result of a transfer with a `size_t`, so they catch the
transfers that come back short and let every error code through
(`Reply.not_ltSizeT_result_iff`).  Besides, `airspyhf_set_samplerate` drops the result of the
retune it ends with.  `Answered` is the exact condition on the replies under which a call keeps its
promise nevertheless (`setting_kept_iff`, `flash_kept_iff`, `configRead_kept_iff`).
-/

namespace AirspyHF

/-- The request commits a setting in the receiver. -/
def VendorRequest.Commits (c : VendorRequest) : Prop :=
  c = .setFreq ∨ c = .setSamplerate ∨ c = .configWrite

instance (c : VendorRequest) : Decidable c.Commits := inferInstanceAs (Decidable (_ ∨ _))

/-- A call that issued `issued`, returned `status` and moved the record of the local oscillator
from `k` to `k'` keeps its promise. -/
structure Promise (k : UInt32) (status : Status) (issued : List Exchange) (k' : UInt32) :
    Prop where
  /-- Success is reported only if every committing request was complete. -/
  success : status = .success → ∀ e ∈ issued, e.request.command.Commits → e.Complete
  /-- The record is changed only by a complete request for that frequency. -/
  freqKhz : k' ≠ k → ∃ e ∈ issued, e.request = setFreqRequest k' ∧ e.Complete

/-- The call that led from `w` to `x` keeps its promise. -/
def Kept (w : World) (x : Status × World) : Prop :=
  Promise w.device.freqKhz x.1 (w.issuedSince x.2) x.2.device.freqKhz

theorem kept_advance_iff {w : World} {status : Status} {es : List Exchange} {d : Device} :
    Kept w (status, w.advance es d) ↔ Promise w.device.freqKhz status es d.freqKhz := by
  rw [Kept, World.issuedSince_advance]
  rfl

namespace Promise

variable {k k' : UInt32} {es : List Exchange}

theorem of_error : Promise k .error es k := ⟨nofun, fun h => absurd rfl h⟩

theorem error_iff (h : k' ≠ k) :
    Promise k .error es k' ↔ ∃ e ∈ es, e.request = setFreqRequest k' ∧ e.Complete :=
  ⟨fun hp => hp.freqKhz h, fun he => ⟨nofun, fun _ => he⟩⟩

/-- If the final record was sent, success is honest exactly when every committing request was
complete. -/
theorem success_iff (h : k' ≠ k → ∃ e ∈ es, e.request = setFreqRequest k') :
    Promise k .success es k' ↔ ∀ e ∈ es, e.request.command.Commits → e.Complete := by
  refine ⟨fun hp => hp.success rfl, fun hall => ⟨fun _ => hall, fun hk => ?_⟩⟩
  obtain ⟨e, he, hq⟩ := h hk
  exact ⟨e, he, hq, hall e he (by rw [hq]; exact .inl rfl)⟩

end Promise

/-! ### Tuning calls -/

/-- The reply to the tuning request of a frequency change is not an error code. -/
def Target.TuneAnswered (T : Target) (freqHz : ℚ) (w : World) : Prop :=
  T.Retunes w.device freqHz → ¬ (w.bus w.log.length).Failed

/-- The replies to the requests of a rate change, from number `n` on, the device being `d` when
the receiver is told the index: the index is refused, or the retune after it needs no request, or
that request is complete. -/
def Target.SwitchAnswered (T : Target) (d : Device) (bus : ℕ → Reply) (n : ℕ) : Prop :=
  (bus n).Failed ∨ (T.Retunes d d.freqHz → (bus (n + 2)).result 4 = 4)

/-- The replies to the requests of a rate change to index `i`. -/
def Target.RateAnswered (T : Target) (i : ℕ) (w : World) : Prop :=
  ∀ h : i < w.device.table.count.toNat,
    if (w.device.selectRate i h).BelowZeroIf then
      ¬ (w.bus w.log.length).Failed ∧ (C.ltSizeT ((w.bus w.log.length).result 4) 4 ∨
        T.SwitchAnswered { w.device.selectRate i h with freqKhz := minZeroIfLo } w.bus
          (w.log.length + 1))
    else T.SwitchAnswered (w.device.selectRate i h) w.bus w.log.length

theorem Target.rateAnswered_of_below {T : Target} {i : ℕ} {w : World}
    (h : i < w.device.table.count.toNat) (hb : (w.device.selectRate i h).BelowZeroIf) :
    T.RateAnswered i w ↔
      ¬ (w.bus w.log.length).Failed ∧ (C.ltSizeT ((w.bus w.log.length).result 4) 4 ∨
        T.SwitchAnswered { w.device.selectRate i h with freqKhz := minZeroIfLo } w.bus
          (w.log.length + 1)) := by
  rw [RateAnswered, forall_prop_of_true h, if_pos hb]

theorem Target.rateAnswered_of_not_below {T : Target} {i : ℕ} {w : World}
    (h : i < w.device.table.count.toNat) (hb : ¬ (w.device.selectRate i h).BelowZeroIf) :
    T.RateAnswered i w ↔ T.SwitchAnswered (w.device.selectRate i h) w.bus w.log.length := by
  rw [RateAnswered, forall_prop_of_true h, if_neg hb]

/-- **The exact condition on the replies.** -/
def Target.Answered (T : Target) : Setting → World → Prop
  | .setFreqDouble freqHz, w => T.TuneAnswered freqHz w
  | .setFreq freqHz, w => T.TuneAnswered freqHz.toNat w
  | .setCalibration ppb, w =>
    T.TuneAnswered w.device.freqHz (w.update fun d => { d with calibrationPpb := ppb })
  | .setSamplerate samplerate, w => T.RateAnswered (w.device.table.resolve samplerate) w
  | .setLibDsp _, _ => True

section

variable {T : Target} {w : World}

/-! #### The retune -/

namespace Target.TuneRun

variable {freqHz : ℚ} {status : Status} {es : List Exchange} {d : Device}

theorem sends (h : T.TuneRun freqHz w status es d) (hk : d.freqKhz ≠ w.device.freqKhz) :
    ∃ e ∈ es, e.request = setFreqRequest d.freqKhz := by
  cases h with
  | kept => exact absurd rfl hk
  | refused => exact absurd rfl hk
  | sent => exact ⟨_, List.mem_cons_of_mem _ List.mem_cons_self, rfl⟩

/-- The committing requests of a retune are complete exactly when the reply to the first one is
four bytes long. -/
theorem commits_iff (h : T.TuneRun freqHz w status es d) :
    (∀ e ∈ es, e.request.command.Commits → e.Complete) ↔
      (T.Retunes w.device freqHz → (w.bus w.log.length).result 4 = 4) := by
  cases h with
  | kept h => simp [h]
  | refused h hs | sent h hs =>
    simp only [List.forall_mem_cons, VendorRequest.Commits, setFreqRequest_command,
      getFreqDeltaRequest_command, List.not_mem_nil, h, forall_const]
    simp [Exchange.Complete, Exchange.result, setFreqRequest]

/-- A retune that ends well is honest exactly when its tuning request did not fail; one that ends
in an error is always honest. -/
theorem promise_iff (h : T.TuneRun freqHz w status es d) :
    Promise w.device.freqKhz status es d.freqKhz ↔ T.TuneAnswered freqHz w := by
  cases h with
  | kept h => exact ⟨fun _ h' => absurd h' h, fun _ => ⟨by simp, fun h' => absurd rfl h'⟩⟩
  | refused h hs =>
    exact ⟨fun _ _ => Reply.not_failed_of_short (by norm_num) hs, fun _ => .of_error⟩
  | sent h hs =>
    rw [Promise.success_iff (fun _ => ⟨_, List.mem_cons_of_mem _ List.mem_cons_self, rfl⟩)]
    simp [VendorRequest.Commits, Target.TuneAnswered, h, setFreq_complete_iff hs]

end Target.TuneRun

theorem setFreqDouble_kept_iff (freqHz : ℚ) :
    Kept w (T.setFreqDouble freqHz w) ↔ T.TuneAnswered freqHz w := by
  obtain ⟨status, es, d, hx, h⟩ := T.setFreqDouble_run freqHz w
  rw [hx, kept_advance_iff, h.promise_iff]

/-! #### The rate change -/

namespace Target.RaiseRun

variable {es₀ : List Exchange} {d₀ : Device}

theorem sends (h : RaiseRun w es₀ d₀) (hk : d₀.freqKhz ≠ w.device.freqKhz) :
    ∃ e ∈ es₀, e.request = setFreqRequest d₀.freqKhz := by
  cases h with
  | kept => exact absurd rfl hk
  | raised => exact ⟨_, List.mem_cons_self, rfl⟩

end Target.RaiseRun

namespace Target.SamplerateRun

variable {i : ℕ} {status : Status} {es : List Exchange} {d : Device}

theorem sends (h : T.SamplerateRun i w status es d) (hk : d.freqKhz ≠ w.device.freqKhz) :
    ∃ e ∈ es, e.request = setFreqRequest d.freqKhz := by
  cases h with
  | invalid => exact absurd rfl hk
  | notRaised => exact absurd rfl hk
  | rejected h es₀ d₀ hr =>
    obtain ⟨e, he, hq⟩ := hr.sends hk
    exact ⟨e, List.mem_cons_of_mem _ he, hq⟩
  | switched h es₀ d₀ hr hf status es d ht =>
    -- the frequency was sent by the retune, or by the request before it
    by_cases hd : d.freqKhz = d₀.freqKhz
    · obtain ⟨e, he, hq⟩ := hr.sends (hd ▸ hk)
      exact ⟨e, by simp [he], by rw [hq, hd]⟩
    · obtain ⟨e, he, hq⟩ := ht.sends hd
      exact ⟨e, by simp [he], hq⟩

theorem promise_iff (h : T.SamplerateRun i w status es d) :
    Promise w.device.freqKhz status es d.freqKhz ↔ T.RateAnswered i w := by
  cases h with
  | invalid h => exact ⟨fun _ h' => absurd h' h, fun _ => .of_error⟩
  | notRaised h hb hs =>
    rw [Target.rateAnswered_of_below h hb]
    exact ⟨fun _ => ⟨Reply.not_failed_of_short (by norm_num) hs, .inl hs⟩, fun _ => .of_error⟩
  | rejected h es₀ d₀ hr hf =>
    cases hr with
    | kept hb =>
      rw [Target.rateAnswered_of_not_below h hb]
      exact ⟨fun _ => .inl hf, fun _ => .of_error⟩
    | raised hb hs =>
      have hk : minZeroIfLo ≠ w.device.freqKhz := fun he => absurd (he ▸ hb.2) (UInt32.lt_irrefl _)
      have hraise := setFreq_complete_iff (k := minZeroIfLo) hs
      rw [Promise.error_iff hk, Target.rateAnswered_of_below h hb]
      -- of the two requests issued only the first one tunes
      constructor
      · rintro ⟨e, he, hq, hc⟩
        have hcommand := congrArg Request.command hq
        obtain rfl | rfl := List.mem_pair.1 he
        · simp at hcommand
        · exact ⟨hraise.1 hc, .inr (.inl hf)⟩
      · intro ha
        exact ⟨_, List.mem_cons_of_mem _ List.mem_cons_self, rfl, hraise.2 ha.1⟩
  | switched h es₀ d₀ hr hf status es d ht =>
    -- the index was taken, so only the tuning requests are in doubt
    have hrate : (⟨setSamplerateRequest i, w.bus (es₀ ++ w.log).length⟩ : Exchange).Complete :=
      (Exchange.complete_iff_of_length_zero rfl).2 hf
    have hswitch : (∀ e ∈ es, e.request.command.Commits → e.Complete) ↔
        T.SwitchAnswered d₀ w.bus (es₀ ++ w.log).length := by
      rw [ht.commits_iff, Target.SwitchAnswered, or_iff_right hf]
      rfl
    rw [Promise.success_iff (sends (.switched h es₀ d₀ hr hf status es d ht))]
    simp only [List.forall_mem_append, List.forall_mem_cons, hswitch, hrate, implies_true,
      true_and]
    cases hr with
    | kept hb =>
      rw [Target.rateAnswered_of_not_below h hb]
      simp [VendorRequest.Commits, selected]
    | raised hb hs =>
      have hraise : (⟨setFreqRequest minZeroIfLo, w.bus w.log.length⟩ : Exchange).Complete ↔
          ¬ (w.bus w.log.length).Failed := setFreq_complete_iff hs
      rw [Target.rateAnswered_of_below h hb, or_iff_right (by exact hs)]
      simp [VendorRequest.Commits, selected, hraise, and_comm]

end Target.SamplerateRun

theorem setSamplerate_kept_iff (samplerate : UInt32) :
    Kept w (T.setSamplerate samplerate w) ↔
      T.RateAnswered (w.device.table.resolve samplerate) w := by
  obtain ⟨status, es, d, hx, h⟩ := T.setSamplerate_run samplerate w
  rw [hx, kept_advance_iff, h.promise_iff]

theorem setting_kept_iff (s : Setting) : Kept w (T.execSetting s w) ↔ T.Answered s w := by
  cases s with
  | setFreqDouble freqHz => exact setFreqDouble_kept_iff freqHz
  | setFreq freqHz => exact setFreqDouble_kept_iff (freqHz.toNat : ℚ)
  | setCalibration ppb =>
    exact setFreqDouble_kept_iff (w := w.update fun d => { d with calibrationPpb := ppb })
      w.device.freqHz
  | setSamplerate samplerate => exact setSamplerate_kept_iff samplerate
  | setLibDsp flag =>
    refine iff_of_true ?_ trivial
    change Kept w (.success, w.advance [] { w.device with enableDsp := flag })
    rw [kept_advance_iff, Promise.success_iff (fun hk => absurd rfl hk)]
    simp

end

/-! ### The flash page -/

/-- The reply to the request of `airspyhf_flash_configuration` is not an error code. -/
def FlashAnswered (w : World) : Prop :=
  w.device.stream.isStreaming = false → ¬ (w.bus w.log.length).Failed

theorem flash_kept_iff {w : World} : Kept w (flashConfiguration w) ↔ FlashAnswered w := by
  obtain ⟨status, es, hx, h⟩ := flashConfiguration_run w
  rw [hx, kept_advance_iff]
  cases h with
  | streaming h => exact ⟨fun _ h' => absurd (h.symm.trans h') nofun, fun _ => .of_error⟩
  | refused h hs => exact ⟨fun _ _ => Reply.not_failed_of_short (by norm_num [configSize]) hs,
      fun _ => .of_error⟩
  | written h hs =>
    have hc := (Reply.not_ltSizeT_result_iff (by norm_num [configSize])).1 hs
    rw [Promise.success_iff (fun hk => absurd rfl hk)]
    simp only [List.forall_mem_singleton, FlashAnswered, h, forall_const]
    exact ⟨fun ha => Exchange.Complete.not_failed (ha (.inr (.inr rfl))),
      fun hf _ => hc.resolve_left hf⟩

/-- A read of the page that reports success delivered all of it. -/
def ReadKept (w : World) (x : Status × World × List UInt8) : Prop :=
  x.1 = .success → (w.bus w.log.length).result configSize = configSize

theorem configRead_kept_iff {w : World} {stack : Fin 256 → UInt8} {length : ℕ} :
    ReadKept w (configRead stack length w) ↔ ¬ (w.bus w.log.length).Failed := by
  unfold configRead
  have hsize : configSize ≤ 2 ^ 16 := by norm_num [configSize]
  by_cases hs : C.ltSizeT ((w.bus w.log.length).result configSize) configSize
  · have hs' : C.ltSizeT (w.exchange configReadRequest).result configSize := hs
    simp only [if_pos hs', ReadKept]
    exact ⟨fun _ => Reply.not_failed_of_short hsize hs, fun _ => nofun⟩
  · have hs' : ¬ C.ltSizeT (w.exchange configReadRequest).result configSize := hs
    simp only [if_neg hs', ReadKept, forall_const]
    exact ⟨Reply.not_failed_of_result_eq,
      ((Reply.not_ltSizeT_result_iff hsize).1 hs).resolve_left⟩

/-- **Success means that the device was told, exactly when no error code was mistaken for a byte
count** and the retune at the end of a rate change was not lost. -/
theorem kept_iff_answered (T : Target) (w : World) :
    (∀ s, Kept w (T.execSetting s w) ↔ T.Answered s w) ∧
      (Kept w (flashConfiguration w) ↔ FlashAnswered w) ∧
      ∀ stack length, ReadKept w (configRead stack length w) ↔ ¬ (w.bus w.log.length).Failed :=
  ⟨setting_kept_iff, flash_kept_iff, fun _ _ => configRead_kept_iff⟩

/-- A receiver that is unplugged just before the first request. -/
def unplugged : World := .fresh .fallback fun n => if n = 0 then .noDevice else .full fun _ => 0

/-- Tuning an unplugged receiver to 10 MHz reports success and records the new frequency. -/
theorem unplugged_tuned :
    (Target.x8664.execSetting (.setFreqDouble 10000000) unplugged).1 = .success ∧
      (Target.x8664.execSetting (.setFreqDouble 10000000) unplugged).2.device.freqKhz = 10005 ∧
      ¬ Kept unplugged (Target.x8664.execSetting (.setFreqDouble 10000000) unplugged) := by
  refine ⟨by decide +kernel, by decide +kernel, ?_⟩
  rw [setting_kept_iff]
  exact fun h => h (by decide +kernel) rfl

end AirspyHF
