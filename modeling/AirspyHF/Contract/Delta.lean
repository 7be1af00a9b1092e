import AirspyHF.Device.Calls

/-!
# The synthesiser error belongs to the current local oscillator

The receiver rounds the frequency of its local oscillator; the error is asked for after every
retune and corrected by the mixer.  `DeltaCurrent` says that the stored error was decoded from a
reply received after the last tuning request the receiver took.

`airspyhf_set_freq_double` keeps this.  `airspyhf_set_samplerate` tunes the receiver without asking
for the error when it raises the local oscillator for a zero-IF rate, and relies on the retune at
its end, which does nothing if the tuned frequency calls for that very local oscillator
(`Target.FloorStays`).  That is the only way to lose it (`deltaCurrent_step_iff`,
`always_deltaCurrent_iff`).
-/

namespace AirspyHF

/-- A tuning request the receiver took. -/
def Exchange.Tunes (e : Exchange) : Prop := e.request.command = .setFreq ∧ e.Complete

instance (e : Exchange) : Decidable e.Tunes := inferInstanceAs (Decidable (_ ∧ _))

/-- The exchanges after the last tuning request the receiver took. -/
def sinceTuned (log : List Exchange) : List Exchange := log.takeWhile fun e => ¬ e.Tunes

/-- The stored synthesiser error was decoded from a reply received after the last tuning request
the receiver took. -/
def DeltaCurrent (T : Target) (w : World) : Prop :=
  (∃ e ∈ w.log, e.Tunes) → ∃ e ∈ sinceTuned w.log, e.request.command = .getFreqDelta ∧
    e.Complete ∧ w.device.freqDeltaHz = T.decodeDelta fun i => e.reply.data i

instance (T : Target) (w : World) : Decidable (DeltaCurrent T w) :=
  inferInstanceAs (Decidable ((∃ e ∈ w.log, _) → ∃ e ∈ sinceTuned w.log, _))

/-- Selecting the rate raises the local oscillator to the lowest frequency of a zero-IF rate, and
the tuned frequency calls for no other one. -/
def Target.FloorStays (T : Target) (d : Device) (samplerate : UInt32) : Prop :=
  ∃ h : d.table.resolve samplerate < d.table.count.toNat,
    (d.selectRate _ h).BelowZeroIf ∧ minZeroIfLo = T.loKhz (d.selectRate _ h) d.freqHz

instance (T : Target) (d : Device) (samplerate : UInt32) : Decidable (T.FloorStays d samplerate) :=
  inferInstanceAs (Decidable (∃ _, _ ∧ _))

/-- The call does not leave the receiver at a local oscillator whose error was not asked for. -/
def Target.Refreshes (T : Target) (w : World) : Setting → Prop
  | .setSamplerate samplerate => ¬ T.FloorStays w.device samplerate
  | _ => True

/-! ### The log -/

theorem sinceTuned_cons_of_tunes {e : Exchange} {log : List Exchange} (h : e.Tunes) :
    sinceTuned (e :: log) = [] := by
  simp [sinceTuned, h]

theorem sinceTuned_append {es log : List Exchange} (h : ∀ e ∈ es, ¬ e.Tunes) :
    sinceTuned (es ++ log) = es ++ sinceTuned log := by
  induction es with
  | nil => rfl
  | cons e es ih =>
    obtain ⟨he, hes⟩ := List.forall_mem_cons.1 h
    simp only [sinceTuned, List.cons_append] at ih ⊢
    rw [List.takeWhile_cons, if_pos (by simpa using he), ih hes]

theorem mem_of_mem_sinceTuned {es log : List Exchange} (h : ∃ e ∈ es, e.Tunes) {e : Exchange}
    (he : e ∈ sinceTuned (es ++ log)) : e ∈ es := by
  induction es with
  | nil => simp at h
  | cons e' es ih =>
    by_cases ht : e'.Tunes
    · rw [List.cons_append, sinceTuned_cons_of_tunes ht] at he
      simp at he
    · rw [List.cons_append, ← List.singleton_append, sinceTuned_append (by simpa using ht)] at he
      have hes := (List.exists_mem_cons_iff ..).1 h |>.resolve_left ht
      exact List.mem_cons.2 ((List.mem_cons.1 he).imp_right (ih hes))

variable {T : Target} {w : World}

theorem DeltaCurrent.advance {es : List Exchange} {d : Device} (hw : DeltaCurrent T w)
    (hes : ∀ e ∈ es, ¬ e.Tunes) (hd : d.freqDeltaHz = w.device.freqDeltaHz) :
    DeltaCurrent T (w.advance es d) := by
  rintro ⟨e, he, ht⟩
  have hmem : e ∈ w.log := (List.mem_append.1 he).resolve_left fun h => hes e h ht
  obtain ⟨r, hr, hq, hc, hv⟩ := hw ⟨e, hmem, ht⟩
  refine ⟨r, ?_, hq, hc, hd.trans hv⟩
  rw [World.advance_log, sinceTuned_append hes]
  exact List.mem_append_right _ hr

theorem not_deltaCurrent_of_mem {es : List Exchange} {d : Device} {e : Exchange} (he : e ∈ es)
    (ht : e.Tunes) (hes : ∀ e ∈ es, e.request.command ≠ .getFreqDelta) :
    ¬ DeltaCurrent T (w.advance es d) := by
  intro hd
  obtain ⟨r, hr, hq, -⟩ := hd ⟨e, List.mem_append_left _ he, ht⟩
  exact hes r (mem_of_mem_sinceTuned ⟨e, he, ht⟩ hr) hq

/-! ### One call -/

/-- A retune whose requests are complete keeps the property, and establishes it if it sends a
frequency. -/
theorem Target.TuneRun.deltaCurrent {freqHz : ℚ} {status : Status} {es : List Exchange} {d : Device}
    (h : T.TuneRun freqHz w status es d) (hc : ∀ e ∈ es, e.Complete)
    (hw : T.Retunes w.device freqHz ∨ DeltaCurrent T w) : DeltaCurrent T (w.advance es d) := by
  cases h with
  | kept h => exact (hw.resolve_left h).advance (by simp) rfl
  | refused h hs =>
    exact absurd (hc _ List.mem_cons_self) (not_complete_setFreq hs)
  | sent h hs =>
    have hdelta := hc _ List.mem_cons_self
    have htunes : (⟨setFreqRequest (T.loKhz w.device freqHz), w.bus w.log.length⟩ :
        Exchange).Tunes := ⟨rfl, hc _ (List.mem_cons_of_mem _ List.mem_cons_self)⟩
    intro _
    refine ⟨⟨getFreqDeltaRequest, w.bus (w.log.length + 1)⟩, ?_, rfl, hdelta,
      T.deltaAfter_of_complete _ _ _ hdelta⟩
    rw [World.advance_log, List.cons_append, List.cons_append,
      ← List.singleton_append, sinceTuned_append (by simp [Exchange.Tunes]),
      sinceTuned_cons_of_tunes htunes]
    simp

theorem Target.SamplerateRun.deltaCurrent {samplerate : UInt32} {status : Status}
    {es : List Exchange} {d : Device}
    (h : T.SamplerateRun (w.device.table.resolve samplerate) w status es d)
    (hc : ∀ e ∈ es, e.Complete) (hf : ¬ T.FloorStays w.device samplerate)
    (hw : DeltaCurrent T w) : DeltaCurrent T (w.advance es d) := by
  cases h with
  | invalid => exact hw.advance (by simp) rfl
  | notRaised h hb hs =>
    exact absurd (hc _ List.mem_cons_self) (not_complete_setFreq hs)
  | rejected h es₀ d₀ hr hf =>
    exact absurd hf (hc _ List.mem_cons_self).not_failed
  | switched h es₀ d₀ hr hrate status es d ht =>
    rw [← World.advance_advance w _ es _ d]
    refine ht.deltaCurrent (fun e he => hc e (List.mem_append_left _ he)) ?_
    cases hr with
    | kept hb => exact .inr (hw.advance (by simp [Exchange.Tunes]) rfl)
    -- the retune sends another frequency, and asks again
    | raised hb hs => exact .inl fun hk => hf ⟨h, hb, hk⟩

/-- If raising the local oscillator is the last tuning of a call, the error is not asked for. -/
theorem Target.SamplerateRun.not_deltaCurrent {samplerate : UInt32} {status : Status}
    {es : List Exchange} {d : Device}
    (h : T.SamplerateRun (w.device.table.resolve samplerate) w status es d)
    (hc : ∀ e ∈ es, e.Complete) (hf : T.FloorStays w.device samplerate) :
    ¬ DeltaCurrent T (w.advance es d) := by
  obtain ⟨hi, hb, hk⟩ := hf
  cases h with
  | invalid h => exact absurd hi h
  | notRaised h hb hs => exact absurd (hc _ List.mem_cons_self) (not_complete_setFreq hs)
  | rejected h es₀ d₀ hr hf => exact absurd hf (hc _ List.mem_cons_self).not_failed
  | switched h es₀ d₀ hr hrate status es d ht =>
    cases hr with
    | kept hb' => exact absurd hb hb'
    | raised hb' hs =>
      -- the retune sends nothing, so the raise stays the last tuning
      cases ht with
      | refused hk' => exact absurd hk hk'
      | sent hk' => exact absurd hk hk'
      | kept =>
        exact not_deltaCurrent_of_mem (e := ⟨setFreqRequest minZeroIfLo, w.bus w.log.length⟩)
          (by simp [selected]) ⟨rfl, hc _ (by simp [selected])⟩ (by simp [or_imp, forall_and])

/-- One call whose requests are complete keeps the property exactly when it asks for the error
after its last tuning. -/
theorem deltaCurrent_step_iff {s : Setting} (hw : DeltaCurrent T w) (hc : AllComplete T w s) :
    DeltaCurrent T (T.execSetting s w).2 ↔ T.Refreshes w s := by
  have key : ∀ freqHz w', DeltaCurrent T w' →
      (∀ e ∈ w'.issuedSince (T.setFreqDouble freqHz w').2, e.Complete) →
        DeltaCurrent T (T.setFreqDouble freqHz w').2 := by
    intro freqHz w' hw' hc'
    obtain ⟨status, es, d, hx, h⟩ := T.setFreqDouble_run freqHz w'
    rw [hx, World.issuedSince_advance] at hc'
    rw [hx]
    exact h.deltaCurrent hc' (.inr hw')
  cases s with
  | setFreqDouble freqHz => exact iff_of_true (key freqHz w hw hc) trivial
  | setFreq freqHz => exact iff_of_true (key freqHz.toNat w hw hc) trivial
  | setCalibration ppb => exact iff_of_true (key w.device.freqHz (w.update _) hw hc) trivial
  | setLibDsp flag => exact iff_of_true hw trivial
  | setSamplerate samplerate =>
    obtain ⟨status, es, d, hx, h⟩ := T.setSamplerate_run samplerate w
    change ∀ e ∈ w.issuedSince (T.setSamplerate samplerate w).2, e.Complete at hc
    rw [hx, World.issuedSince_advance] at hc
    change DeltaCurrent T (T.setSamplerate samplerate w).2 ↔ _
    rw [hx]
    exact ⟨fun hd hf => h.not_deltaCurrent hc hf hd, fun hf => h.deltaCurrent hc hf hw⟩

theorem deltaCurrent_of_opened (hw : w.Opened) : DeltaCurrent T w :=
  fun ⟨e, he, ht⟩ => absurd ht.1 (hw.log e he).1

/-! ### Runs -/

/-- **The stored error always belongs to the current local oscillator, exactly when no rate change
leaves it at the lowest frequency of the zero-IF rates.** -/
theorem always_deltaCurrent_iff (T : Target) {w : World} {calls : List Setting} (hw : w.Opened)
    (hc : T.settings.Meets (AllComplete T) w calls) :
    T.settings.Always (DeltaCurrent T) w calls ↔ T.settings.Meets T.Refreshes w calls :=
  Machine.always_iff_meets (P := DeltaCurrent T) (F := AllComplete T) (G := T.Refreshes)
    (fun _ _ => deltaCurrent_step_iff) hc (deltaCurrent_of_opened hw)

/-- The error is current when the receiver was tuned to 100 kHz at the low-IF rate. -/
theorem obliging_always_deltaCurrent : Target.x8664.settings.Always (DeltaCurrent .x8664)
    (.obliging .twoRates) [.setSamplerate 1, .setFreqDouble 100000] := by
  refine (always_deltaCurrent_iff _ (World.opened_fresh (by decide) _) ?_).2 ?_
  · decide +kernel
  · simp only [Target.settings, Machine.ofFun_meets_cons, Machine.ofFun_meets_nil,
      Target.Refreshes]
    decide +kernel

/-- Selecting the zero-IF rate then raises the local oscillator to 180 kHz, and the error stays
that of 100 kHz. -/
theorem obliging_stale :
    Target.x8664.settings.Meets (AllComplete .x8664) (.obliging .twoRates)
        [.setSamplerate 1, .setFreqDouble 100000, .setSamplerate 0] ∧
      ¬ Target.x8664.settings.Always (DeltaCurrent .x8664) (.obliging .twoRates)
        [.setSamplerate 1, .setFreqDouble 100000, .setSamplerate 0] := by
  decide +kernel

end AirspyHF
