import AirspyHF.Device.Calls

/-!
# Does the order of the configuration calls matter?

`Config` is what an application has asked for: the arguments last given to the tuning calls.  A
device `Reflects` it when its fields are those of the last arguments, and the local oscillator is
the one they call for.

`airspyhf_set_lib_dsp` is the exception among the tuning calls: it changes the IF shift and does
not retune.  So a `Config` also remembers the DSP flag at the last call that did retune
(`Config.retuneDsp`), and two sequences with the same last arguments end in states that agree
exactly when the two flags lead to the same local oscillator (`IfAlike`).
-/

namespace AirspyHF

/-! ### What the application asked for -/

/-- The arguments last given. -/
structure Config where
  /-- The tuned frequency. -/
  freqHz : ℚ
  /-- The argument of the last rate change, if there was one. -/
  samplerate : Option UInt32
  /-- The calibration. -/
  calibrationPpb : Int32
  /-- The DSP flag. -/
  dsp : UInt8
  /-- The DSP flag at the last call that retuned the receiver, if there was one. -/
  retuneDsp : Option UInt8

namespace Setting

/-- The frequency given to a call. -/
def freqHz? : Setting → Option ℚ
  | .setFreqDouble freqHz => some freqHz
  | .setFreq freqHz => some freqHz.toNat
  | _ => none

/-- The rate given to a call. -/
def samplerate? : Setting → Option UInt32
  | .setSamplerate samplerate => some samplerate
  | _ => none

/-- The calibration given to a call. -/
def calibrationPpb? : Setting → Option Int32
  | .setCalibration ppb => some ppb
  | _ => none

/-- The DSP flag given to a call. -/
def dsp? : Setting → Option UInt8
  | .setLibDsp flag => some flag
  | _ => none

end Setting

namespace Config

/-- The configuration after one more call. -/
def apply (c : Config) (s : Setting) : Config where
  freqHz := s.freqHz?.getD c.freqHz
  samplerate := s.samplerate?.or c.samplerate
  calibrationPpb := s.calibrationPpb?.getD c.calibrationPpb
  dsp := s.dsp?.getD c.dsp
  retuneDsp := if s.dsp?.isSome then c.retuneDsp else some c.dsp

/-- The configuration before the first call. -/
def ofDevice (d : Device) : Config := ⟨d.freqHz, none, d.calibrationPpb, d.enableDsp, none⟩

end Config

/-- The DSP flag in force at the last call of the sequence that retuned the receiver. -/
def retuneDsp (d : Device) (calls : List Setting) : UInt8 :=
  (calls.foldl Config.apply (.ofDevice d)).retuneDsp.getD d.enableDsp

/-- The last argument given to every operation; every operation occurs. -/
structure LastArguments (calls : List Setting) (freqHz : ℚ) (samplerate : UInt32) (ppb : Int32)
    (dsp : UInt8) : Prop where
  freqHz : (calls.filterMap Setting.freqHz?).getLast? = some freqHz
  samplerate : (calls.filterMap Setting.samplerate?).getLast? = some samplerate
  calibrationPpb : (calls.filterMap Setting.calibrationPpb?).getLast? = some ppb
  dsp : (calls.filterMap Setting.dsp?).getLast? = some dsp

/-- A field that every call overwrites with its argument, if it has one, ends as the last
argument. -/
theorem foldl_eq_getLast? {α : Type*} (get : Config → α) (arg : Setting → Option α)
    (h : ∀ c s, get (c.apply s) = (arg s).getD (get c)) (calls : List Setting) (c : Config) :
    get (calls.foldl Config.apply c) = ((calls.filterMap arg).getLast?).getD (get c) := by
  induction calls generalizing c with
  | nil => rfl
  | cons s calls ih =>
    rw [List.foldl_cons, ih, h]
    cases hs : arg s <;> simp [hs, List.getLast?_cons]

theorem isSome_retuneDsp_foldl (calls : List Setting) (c : Config)
    (h : c.retuneDsp.isSome ∨ ∃ s ∈ calls, s.dsp? = none) :
    (calls.foldl Config.apply c).retuneDsp.isSome := by
  induction calls generalizing c with
  | nil => simpa using h
  | cons s calls ih =>
    refine ih (c.apply s) ?_
    cases hs : s.dsp? with
    | none => simp [Config.apply, hs]
    | some flag => simpa [Config.apply, hs] using h

/-- What the last arguments say about the configuration. -/
theorem LastArguments.foldl {calls : List Setting} {freqHz : ℚ} {samplerate : UInt32}
    {ppb : Int32} {dsp : UInt8} (h : LastArguments calls freqHz samplerate ppb dsp) (c : Config) :
    ∃ e, calls.foldl Config.apply c = ⟨freqHz, some samplerate, ppb, dsp, some e⟩ := by
  have hf := foldl_eq_getLast? Config.freqHz Setting.freqHz? (fun _ _ => rfl) calls c
  have hs := foldl_eq_getLast? Config.samplerate (fun s => s.samplerate?.map some)
    (fun _ s => by cases s <;> rfl) calls c
  have hp := foldl_eq_getLast? Config.calibrationPpb Setting.calibrationPpb? (fun _ _ => rfl)
    calls c
  have hd := foldl_eq_getLast? Config.dsp Setting.dsp? (fun _ _ => rfl) calls c
  rw [h.freqHz] at hf
  rw [← List.map_filterMap, List.getLast?_map, h.samplerate] at hs
  rw [h.calibrationPpb] at hp
  rw [h.dsp] at hd
  obtain ⟨s, hmem, hfreq⟩ := List.mem_filterMap.1 (List.mem_of_getLast? h.freqHz)
  have hretune := isSome_retuneDsp_foldl calls c
    (.inr ⟨s, hmem, by cases s <;> simp_all [Setting.freqHz?, Setting.dsp?]⟩)
  obtain ⟨e, he⟩ := Option.isSome_iff_exists.1 hretune
  generalize calls.foldl Config.apply c = c' at *
  obtain ⟨f, r, p, d, o⟩ := c'
  simp only [Option.getD_some, Option.map_some] at hf hs hp hd he
  exact ⟨e, by rw [hf, hs, hp, hd, he]⟩

/-! ### The device reflects the configuration -/

/-- The call succeeds, and its requests are complete. -/
def Succeeds (T : Target) (w : World) (s : Setting) : Prop :=
  (T.execSetting s w).1 = .success ∧ AllComplete T w s

instance (T : Target) (w : World) (s : Setting) : Decidable (Succeeds T w s) :=
  inferInstanceAs (Decidable (_ ∧ _))

/-- The fields of the device are those of the last arguments. -/
structure Reflects (T : Target) (t : RateTable) (c : Config) (d : Device) : Prop where
  table : d.table = t
  freqHz : d.freqHz = c.freqHz
  calibrationPpb : d.calibrationPpb = c.calibrationPpb
  enableDsp : d.enableDsp = c.dsp
  atIndex : ∀ r, c.samplerate = some r → d.AtIndex (t.resolve r)
  /-- The local oscillator is that of the last retune. -/
  freqKhz : ∀ e, c.retuneDsp = some e → d.freqKhz = T.loKhz { d with enableDsp := e } d.freqHz
  /-- The mixer shift is that of the last retune. -/
  freqShift : c.retuneDsp.isSome → d.freqShift - d.freqDeltaHz =
    adjustedFreqHz d.calibrationPpb d.freqHz - d.freqKhz.toNat * 10 ^ 3

variable {T : Target} {w : World}

theorem reflects_ofDevice (d : Device) : Reflects T d.table (.ofDevice d) d where
  table := rfl
  freqHz := rfl
  calibrationPpb := rfl
  enableDsp := rfl
  atIndex := nofun
  freqKhz := nofun
  freqShift := nofun

/-- A retune whose requests are complete leaves the receiver at the frequency the fields call
for. -/
theorem Target.TuneRun.tuned {freqHz : ℚ} {status : Status} {es : List Exchange} {d : Device}
    (h : T.TuneRun freqHz w status es d) (hc : ∀ e ∈ es, e.Complete) :
    d.freqHz = freqHz ∧ d.freqKhz = T.loKhz d freqHz ∧ d.freqShift - d.freqDeltaHz =
      adjustedFreqHz d.calibrationPpb freqHz - d.freqKhz.toNat * 10 ^ 3 := by
  have hlo := T.loKhz_of_frame h.frame freqHz
  cases h with
  | kept h =>
    have hk : w.device.freqKhz = T.loKhz w.device freqHz := not_not.1 h
    refine ⟨rfl, hk.trans hlo.symm, ?_⟩
    simp only [Device.finishTuning, hk]
    ring
  | refused h hs => exact absurd (hc _ List.mem_cons_self) (not_complete_setFreq hs)
  | sent h hs =>
    refine ⟨rfl, hlo.symm, ?_⟩
    simp only [Device.finishTuning, Target.retunedDevice]
    ring

theorem Target.TuneRun.reflects {freqHz : ℚ} {status : Status} {es : List Exchange} {d : Device}
    {t : RateTable} {c : Config} (h : T.TuneRun freqHz w status es d) (hc : ∀ e ∈ es, e.Complete)
    (hf : freqHz = c.freqHz) (ht : w.device.table = t)
    (hp : w.device.calibrationPpb = c.calibrationPpb) (he : w.device.enableDsp = c.dsp)
    (hi : ∀ r, c.samplerate = some r → w.device.AtIndex (t.resolve r))
    (hr : c.retuneDsp = some c.dsp) :
    Reflects T t c d := by
  obtain ⟨hfreq, hk, hshift⟩ := h.tuned hc
  have hframe := h.frame
  refine ⟨hframe.table.trans ht, hfreq.trans hf, hframe.calibrationPpb.trans hp,
    hframe.enableDsp.trans he, fun r hr => ?_, fun e he' => ?_, fun _ => hfreq ▸ hshift⟩
  · simpa [Device.AtIndex, hframe.table, hframe.currentSamplerate, hframe.isLowIf] using hi r hr
  · obtain rfl : c.dsp = e := Option.some.inj (hr.symm.trans he')
    rw [hfreq, hk, ← he, ← hframe.enableDsp]
    rfl

/-- **One call** keeps the reflection. -/
theorem Reflects.step {t : RateTable} {c : Config} {s : Setting} (h : Reflects T t c w.device)
    (hs : Succeeds T w s) : Reflects T t (c.apply s) (T.execSetting s w).2.device := by
  obtain ⟨hok, hc⟩ := hs
  have key : ∀ (f : ℚ) (w' : World) (c' : Config),
      (∀ e ∈ w'.issuedSince (T.setFreqDouble f w').2, e.Complete) → f = c'.freqHz →
      w'.device.table = t → w'.device.calibrationPpb = c'.calibrationPpb →
      w'.device.enableDsp = c'.dsp →
      (∀ r, c'.samplerate = some r → w'.device.AtIndex (t.resolve r)) →
      c'.retuneDsp = some c'.dsp → Reflects T t c' (T.setFreqDouble f w').2.device := by
    intro f w' c' hc' hf ht hp he hi hr
    obtain ⟨status, es, d, hx, hrun⟩ := T.setFreqDouble_run f w'
    rw [hx, World.issuedSince_advance] at hc'
    rw [hx]
    exact hrun.reflects hc' hf ht hp he hi hr
  cases s with
  | setFreqDouble f =>
    exact key f w _ hc rfl h.table h.calibrationPpb h.enableDsp h.atIndex rfl
  | setFreq f =>
    exact key f.toNat w _ hc rfl h.table h.calibrationPpb h.enableDsp h.atIndex rfl
  | setCalibration ppb =>
    exact key w.device.freqHz (w.update _) _ hc h.freqHz h.table rfl h.enableDsp h.atIndex rfl
  -- no retune: the oscillator stays that of the flag before
  | setLibDsp flag =>
    exact ⟨h.table, h.freqHz, h.calibrationPpb, rfl, h.atIndex, h.freqKhz, h.freqShift⟩
  | setSamplerate samplerate =>
    obtain ⟨status, es, d, hx, hrun⟩ := T.setSamplerate_run samplerate w
    change (T.setSamplerate samplerate w).1 = _ at hok
    change ∀ e ∈ w.issuedSince (T.setSamplerate samplerate w).2, e.Complete at hc
    change Reflects T t _ (T.setSamplerate samplerate w).2.device
    rw [hx] at hok ⊢
    rw [hx, World.issuedSince_advance] at hc
    cases hrun with
    | invalid => cases hok
    | notRaised => cases hok
    | rejected => cases hok
    | switched hi es₀ d₀ hr hf status es d ht =>
      obtain ⟨k, rfl⟩ := hr.device_eq
      refine ht.reflects (fun e he => hc e (List.mem_append_left _ he)) h.freqHz h.table
        h.calibrationPpb h.enableDsp (fun r hr => ?_) rfl
      cases hr
      rw [← h.table]
      exact ⟨RateTable.getElem?_rates hi, RateTable.getElem?_architectures hi⟩

/-- **Runs**: after any sequence of successful calls the device reflects the last arguments. -/
theorem Reflects.run {t : RateTable} {c : Config} {calls : List Setting} {w' : World}
    (h : Reflects T t c w.device) (hs : T.settings.Meets (Succeeds T) w calls)
    (hr : T.settings.run w calls = some w') :
    Reflects T t (calls.foldl Config.apply c) w'.device := by
  induction calls generalizing w c with
  | nil => cases hr; exact h
  | cons s calls ih => exact ih (h.step hs.1) (hs.2 _ rfl) hr

/-! ### The local oscillator and the DSP flag -/

/-- The DSP flags `e` and `e'` lead to the same local oscillator: the IF shift does not apply, or
is the same, or both frequencies are below the lowest one of the zero-IF rates. -/
def IfAlike (lowIf : Prop) (adjusted : ℚ) (e e' : UInt8) : Prop :=
  lowIf ∨ (e = 0 ↔ e' = 0) ∨ -500 < adjusted ∧ adjusted < 175500

/-- The conversions of the frequency to `uint32_t` are defined. -/
def Convertible (adjusted : ℚ) : Prop := -500 < adjusted ∧ adjusted < (2 ^ 32 - 6) * 10 ^ 3

section

variable {d : Device} {freqHz : ℚ} {e e' : UInt8}

theorem loKhz_eq_of_ifShift_eq
    (h : { d with enableDsp := e }.ifShift = { d with enableDsp := e' }.ifShift) :
    T.loKhz { d with enableDsp := e } freqHz = T.loKhz { d with enableDsp := e' } freqHz := by
  simp only [Target.loKhz, h]
  rfl

/-- The local oscillator as a number. -/
theorem toNat_loKhz (h₀ : -500 < adjustedFreqHz d.calibrationPpb freqHz + d.ifShift)
    (h₁ : adjustedFreqHz d.calibrationPpb freqHz + d.ifShift < (2 ^ 32 - 1) * 10 ^ 3) :
    (T.loKhz d freqHz).toNat = max d.loLowKhz.toNat
      (C.round ((adjustedFreqHz d.calibrationPpb freqHz + d.ifShift) * (1 / 10 ^ 3))).toNat := by
  generalize hx : (adjustedFreqHz d.calibrationPpb freqHz + d.ifShift) * (1 / 10 ^ 3) = x
  have hx₀ : -1 / 2 < x := by linarith
  have hx₁ : x < (2 ^ 32 : ℤ) - 1 / 2 := by push_cast; linarith
  have hz₀ := C.round_nonneg hx₀
  have hz₁ := (C.round_lt_iff hx₀ (by norm_num)).2 hx₁
  have hn := T.toUInt32_toNat (C.round x : ℤ) (by exact_mod_cast hz₀) (by exact_mod_cast hz₁)
  rw [Int.floor_intCast] at hn
  simp only [Target.loKhz, hx]
  split
  · rename_i hlt
    have := UInt32.lt_iff_toNat_lt.1 hlt
    omega
  · rename_i hlt
    have := UInt32.not_lt.1 hlt
    rw [UInt32.le_iff_toNat_le] at this
    omega

/-- At a zero-IF rate, the shift makes a difference from 175.5 kHz on. -/
theorem loKhz_eq_iff (hl : d.isLowIf = 0) (he : e ≠ 0) (he' : e' = 0)
    (h : Convertible (adjustedFreqHz d.calibrationPpb freqHz)) :
    T.loKhz { d with enableDsp := e } freqHz = T.loKhz { d with enableDsp := e' } freqHz ↔
      adjustedFreqHz d.calibrationPpb freqHz < 175500 := by
  obtain ⟨h₀, h₁⟩ := h
  have hshift : ({ d with enableDsp := e } : Device).ifShift = defaultIfShift := if_pos ⟨he, hl⟩
  have hshift' : ({ d with enableDsp := e' } : Device).ifShift = 0 := if_neg fun h => h.1 he'
  have hlow : d.loLowKhz.toNat = 180 := by simp [Device.loLowKhz, hl, minZeroIfLo]
  rw [← UInt32.toNat_inj,
    toNat_loKhz (by rw [hshift, defaultIfShift]; exact by linarith)
      (by rw [hshift, defaultIfShift]; exact by linarith),
    toNat_loKhz (by rw [hshift']; exact by linarith) (by rw [hshift']; exact by linarith), hshift,
    hshift']
  change max d.loLowKhz.toNat _ = max d.loLowKhz.toNat _ ↔ _
  rw [hlow]
  generalize hx : adjustedFreqHz d.calibrationPpb freqHz * (1 / 10 ^ 3) = x
  have hx₀ : -1 / 2 < x := by linarith
  have hadd : (adjustedFreqHz d.calibrationPpb freqHz + defaultIfShift) * (1 / 10 ^ 3) =
      x + (5 : ℕ) := by rw [← hx, defaultIfShift]; push_cast; ring
  have hz := C.round_nonneg hx₀
  have hlt := C.round_lt_iff (n := 176) hx₀ (by norm_num)
  have hfloor : x < ((176 : ℤ) : ℚ) - 1 / 2 ↔
      adjustedFreqHz d.calibrationPpb freqHz < 175500 := by
    rw [← hx]
    push_cast
    constructor <;> intro h <;> linarith
  -- the shift is five steps of the grid
  rw [show (({ d with enableDsp := e } : Device).calibrationPpb) = d.calibrationPpb from rfl,
    hadd, C.round_add_natCast hx₀ 5 (by norm_num), add_zero, hx, ← hfloor, ← hlt]
  omega

theorem loKhz_eq_of_alike
    (h : IfAlike (d.isLowIf ≠ 0) (adjustedFreqHz d.calibrationPpb freqHz) e e') :
    T.loKhz { d with enableDsp := e } freqHz = T.loKhz { d with enableDsp := e' } freqHz := by
  rcases h with hl | he | ⟨h₀, h₁⟩
  · refine loKhz_eq_of_ifShift_eq ?_
    simp [Device.ifShift, hl]
  · refine loKhz_eq_of_ifShift_eq ?_
    simp [Device.ifShift, he]
  · have hconv : Convertible (adjustedFreqHz d.calibrationPpb freqHz) :=
      ⟨h₀, h₁.trans (by norm_num)⟩
    by_cases hl : d.isLowIf = 0
    · by_cases he : e = 0 <;> by_cases he' : e' = 0
      · rw [he, he']
      · exact ((loKhz_eq_iff hl he' he hconv).2 h₁).symm
      · exact (loKhz_eq_iff hl he he' hconv).2 h₁
      · refine loKhz_eq_of_ifShift_eq ?_
        simp [Device.ifShift, he, he']
    · refine loKhz_eq_of_ifShift_eq ?_
      simp [Device.ifShift, hl]

theorem alike_of_loKhz_eq (hconv : Convertible (adjustedFreqHz d.calibrationPpb freqHz))
    (h : T.loKhz { d with enableDsp := e } freqHz = T.loKhz { d with enableDsp := e' } freqHz) :
    IfAlike (d.isLowIf ≠ 0) (adjustedFreqHz d.calibrationPpb freqHz) e e' := by
  by_cases hl : d.isLowIf = 0
  · refine .inr ?_
    by_cases he : e = 0 <;> by_cases he' : e' = 0
    · exact .inl (iff_of_true he he')
    · exact .inr ⟨hconv.1, (loKhz_eq_iff hl he' he hconv).1 h.symm⟩
    · exact .inr ⟨hconv.1, (loKhz_eq_iff hl he he' hconv).1 h⟩
    · exact .inl (iff_of_false he he')
  · exact .inl hl

end

/-! ### Two sequences -/

/-- The final states of two sequences agree. -/
structure FinalAgree (d d' : Device) : Prop where
  currentSamplerate : d.currentSamplerate = d'.currentSamplerate
  isLowIf : d.isLowIf = d'.isLowIf
  calibrationPpb : d.calibrationPpb = d'.calibrationPpb
  freqKhz : d.freqKhz = d'.freqKhz
  freqShift : d.freqShift - d.freqDeltaHz = d'.freqShift - d'.freqDeltaHz

/-- What a sequence ends in whose last arguments are `f`, `r` and `ppb`, the DSP flag being `e` at
its last retune. -/
structure Settled (T : Target) (t : RateTable) (f : ℚ) (r : UInt32) (ppb : Int32) (e : UInt8)
    (d : Device) : Prop where
  freqHz : d.freqHz = f
  calibrationPpb : d.calibrationPpb = ppb
  currentSamplerate : t.rates[t.resolve r]? = some d.currentSamplerate
  isLowIf : t.architectures[t.resolve r]? = some d.isLowIf
  freqKhz : d.freqKhz = T.loKhz { d with enableDsp := e } f
  freqShift : d.freqShift - d.freqDeltaHz = adjustedFreqHz ppb f - d.freqKhz.toNat * 10 ^ 3

section

variable {freqHz : ℚ} {samplerate : UInt32} {ppb : Int32} {dsp : UInt8}

theorem settled_of_run {calls : List Setting} {w' : World}
    (hs : T.settings.Meets (Succeeds T) w calls) (hr : T.settings.run w calls = some w')
    (hl : LastArguments calls freqHz samplerate ppb dsp) :
    Settled T w.device.table freqHz samplerate ppb (retuneDsp w.device calls) w'.device ∧
      w'.device.enableDsp = dsp := by
  have h := (reflects_ofDevice w.device).run hs hr
  obtain ⟨e, he⟩ := hl.foldl (.ofDevice w.device)
  rw [retuneDsp, he]
  rw [he] at h
  have hi := h.atIndex samplerate rfl
  rw [Device.AtIndex, h.table] at hi
  refine ⟨⟨h.freqHz, h.calibrationPpb, hi.1, hi.2, ?_, ?_⟩, h.enableDsp⟩
  · rw [h.freqKhz e rfl, h.freqHz]
    rfl
  · rw [h.freqShift rfl, h.freqHz, h.calibrationPpb]

variable {t : RateTable} {d d' : Device} {e e' : UInt8}

theorem Settled.lowIf_iff (h : Settled T t freqHz samplerate ppb e d) :
    d.isLowIf ≠ 0 ↔ t.architectures[t.resolve samplerate]? ≠ some 0 := by
  rw [h.isLowIf, ne_eq, ne_eq, Option.some.injEq]

theorem Settled.finalAgree_iff (h : Settled T t freqHz samplerate ppb e d)
    (h' : Settled T t freqHz samplerate ppb e' d') : FinalAgree d d' ↔
      T.loKhz { d with enableDsp := e } freqHz = T.loKhz { d with enableDsp := e' } freqHz := by
  have hrate := Option.some.inj (h.currentSamplerate.symm.trans h'.currentSamplerate)
  have hlow := Option.some.inj (h.isLowIf.symm.trans h'.isLowIf)
  have hk : T.loKhz { d with enableDsp := e' } freqHz = d'.freqKhz := by
    rw [h'.freqKhz]
    simp only [Target.loKhz, Device.ifShift, Device.loLowKhz, hlow, h.calibrationPpb,
      h'.calibrationPpb]
  rw [hk, ← h.freqKhz]
  refine ⟨FinalAgree.freqKhz, fun heq => ⟨hrate, hlow, ?_, heq, ?_⟩⟩
  · rw [h.calibrationPpb, h'.calibrationPpb]
  · rw [h.freqShift, h'.freqShift, heq]

end

/-- **Two sequences with the same last arguments end in states that agree, exactly when the DSP
flags at their last retunes lead to the same local oscillator.**  Likewise, the final local
oscillator of a sequence is the one of its last arguments, exactly when its DSP flag at the last
retune and its last one lead to the same.  (Where the conversion to `uint32_t` is undefined, the
local oscillators may agree for no reason.) -/
theorem finalAgree_iff_alike (T : Target) {w₁ w₂ w₁' w₂' : World} {calls₁ calls₂ : List Setting}
    {freqHz : ℚ} {samplerate : UInt32} {ppb : Int32} {dsp : UInt8}
    (ht : w₁.device.table = w₂.device.table)
    (hs₁ : T.settings.Meets (Succeeds T) w₁ calls₁) (hr₁ : T.settings.run w₁ calls₁ = some w₁')
    (hl₁ : LastArguments calls₁ freqHz samplerate ppb dsp)
    (hs₂ : T.settings.Meets (Succeeds T) w₂ calls₂) (hr₂ : T.settings.run w₂ calls₂ = some w₂')
    (hl₂ : LastArguments calls₂ freqHz samplerate ppb dsp) :
    let t := w₁.device.table
    let alike := IfAlike (t.architectures[t.resolve samplerate]? ≠ some 0)
      (adjustedFreqHz ppb freqHz) (retuneDsp w₁.device calls₁)
    (alike (retuneDsp w₂.device calls₂) → FinalAgree w₁'.device w₂'.device) ∧
      (alike dsp → w₁'.device.freqKhz = T.loKhz w₁'.device freqHz) ∧
      (Convertible (adjustedFreqHz ppb freqHz) →
        (FinalAgree w₁'.device w₂'.device → alike (retuneDsp w₂.device calls₂)) ∧
        (w₁'.device.freqKhz = T.loKhz w₁'.device freqHz → alike dsp)) := by
  intro t alike
  obtain ⟨h₁, rfl⟩ := settled_of_run hs₁ hr₁ hl₁
  obtain ⟨h₂, -⟩ := settled_of_run hs₂ hr₂ hl₂
  rw [← ht] at h₂
  have hlo : w₁'.device.freqKhz = T.loKhz w₁'.device freqHz ↔
      T.loKhz { w₁'.device with enableDsp := retuneDsp w₁.device calls₁ } freqHz =
        T.loKhz { w₁'.device with enableDsp := w₁'.device.enableDsp } freqHz :=
    Eq.congr_left h₁.freqKhz
  simp only [alike, t, h₁.finalAgree_iff h₂, hlo, ← h₁.lowIf_iff, ← h₁.calibrationPpb]
  exact ⟨loKhz_eq_of_alike, loKhz_eq_of_alike,
    fun hc => ⟨alike_of_loKhz_eq hc, alike_of_loKhz_eq hc⟩⟩

/-- Disable the DSP first, then tune to 10 MHz. -/
def dspFirst : List Setting :=
  [.setLibDsp 0, .setSamplerate 0, .setCalibration 0, .setFreqDouble 10000000]

/-- Disable the DSP, and end with the calibration. -/
def calibrationLast : List Setting :=
  [.setFreqDouble 10000000, .setSamplerate 0, .setLibDsp 0, .setCalibration 0]

/-- Tune to 10 MHz, then disable the DSP. -/
def dspLast : List Setting :=
  [.setSamplerate 0, .setCalibration 0, .setFreqDouble 10000000, .setLibDsp 0]

theorem obliging_succeeds (calls : List Setting)
    (h : calls ∈ [dspFirst, calibrationLast, dspLast]) :
    Target.x8664.settings.Meets (Succeeds .x8664) (.obliging .fallback) calls := by
  obtain rfl | rfl | rfl : calls = dspFirst ∨ calls = calibrationLast ∨ calls = dspLast := by
    simpa using h
  all_goals decide +kernel

/-- Two sequences that both retune after disabling the DSP end in states that agree. -/
theorem dspFirst_finalAgree :
    FinalAgree (dspFirst.foldl (fun w s => (Target.x8664.execSetting s w).2)
        (.obliging .fallback)).device
      (calibrationLast.foldl (fun w s => (Target.x8664.execSetting s w).2)
        (.obliging .fallback)).device :=
  (finalAgree_iff_alike .x8664 rfl
    (obliging_succeeds dspFirst (by simp)) (Machine.ofFun_run ..)
    (show LastArguments dspFirst 10000000 0 0 0 from ⟨rfl, rfl, rfl, rfl⟩)
    (obliging_succeeds calibrationLast (by simp)) (Machine.ofFun_run ..)
    ⟨rfl, rfl, rfl, rfl⟩).1 (.inr (.inl (by decide)))

/-- Disabling the DSP first or last leaves the local oscillator at 10000 or 10005 kHz. -/
theorem dspLast_not_finalAgree :
    Target.x8664.settings.Meets (Succeeds .x8664) (.obliging .fallback) dspFirst ∧
      Target.x8664.settings.Meets (Succeeds .x8664) (.obliging .fallback) dspLast ∧
      LastArguments dspFirst 10000000 0 0 0 ∧ LastArguments dspLast 10000000 0 0 0 ∧
      ¬ FinalAgree (dspFirst.foldl (fun w s => (Target.x8664.execSetting s w).2)
          (.obliging .fallback)).device
        (dspLast.foldl (fun w s => (Target.x8664.execSetting s w).2)
          (.obliging .fallback)).device := by
  refine ⟨obliging_succeeds _ (by simp), obliging_succeeds _ (by simp), ⟨rfl, rfl, rfl, rfl⟩,
    ⟨rfl, rfl, rfl, rfl⟩, fun h => absurd h.freqKhz ?_⟩
  decide +kernel

end AirspyHF
