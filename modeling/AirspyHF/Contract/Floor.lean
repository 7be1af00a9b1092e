import AirspyHF.Contract.Delta
import AirspyHF.Contract.Rate
import AirspyHF.Contract.Tables
import AirspyHF.Device.Rates

/-!
# The receiver is never tuned below its floor

In the zero-IF architecture the local oscillator must not be below 180 kHz, in the low-IF one not
below 84 kHz.  The device is in the architecture of the rate index it last accepted; the driver
clamps every frequency to the floor of the architecture it has recorded, and raises the local
oscillator before it selects a zero-IF rate.

`Lawful` states the law on the order of the messages.  The driver keeps it as long as the two agree
on the architecture; the only way to lose that is an index that means another architecture when it
is cut to the 16 bits of the message (`Target.MeansZeroIf`).  A table that comes in full is too
short for that, and so the law holds after every `airspyhf_open_init` that received its tables in
full or set the default (`always_lawful`).  After one that accepted less, an index may lead to what the heap
held before (`unsent_not_lawful`).
-/

namespace AirspyHF

/-- The rate index `i` is one of the zero-IF architecture. -/
def RateTable.ZeroIfAt (t : RateTable) (i : ℕ) : Prop := t.architectures[i]? = some 0

instance (t : RateTable) (i : ℕ) : Decidable (t.ZeroIfAt i) := inferInstanceAs (Decidable (_ = _))

/-- The lowest frequency, in kHz, at the rate index `i`. -/
def RateTable.floorAt (t : RateTable) (i : ℕ) : ℕ := if t.ZeroIfAt i then 180 else 84

/-- The frequency a tuning request carries: its bytes, most significant first. -/
def Exchange.khz (e : Exchange) : ℕ := C.ofBeBytes e.request.payload

/-- The frequency of the last tuning request the receiver took. -/
def lastFreq (log : List Exchange) : Option ℕ := (log.find? fun e => e.Tunes).map Exchange.khz

/-- A message may follow the messages in the log: a tuning request carries four bytes and no
frequency below the floor of the device, and a zero-IF rate is selected only when the receiver is
tuned to the floor of the zero-IF rates at least. -/
def Allowed (t : RateTable) (log : List Exchange) (e : Exchange) : Prop :=
  (e.Tunes → e.request.payload.length = 4 ∧ t.floorAt (deviceIndex log) ≤ e.khz) ∧
    (e.SelectsRate → t.ZeroIfAt e.request.index.toNat → ∃ k ∈ lastFreq log, 180 ≤ k)

instance (t : RateTable) (log : List Exchange) (e : Exchange) : Decidable (Allowed t log e) :=
  inferInstanceAs (Decidable ((_ → _) ∧ (_ → _ → ∃ k ∈ lastFreq log, 180 ≤ k)))

/-- Every message of the log was allowed after those before it. -/
def Lawful (t : RateTable) : List Exchange → Prop
  | [] => True
  | e :: log => Allowed t log e ∧ Lawful t log

/-- The driver records the frequency that the receiver was last tuned to. -/
def Recorded (w : World) : Prop := ∀ k ∈ lastFreq w.log, k = w.device.freqKhz.toNat

/-! ### The conditions on a call -/

/-- Every tuning request and every rate selection of the call is complete. -/
def Delivers (T : Target) (w : World) (s : Setting) : Prop :=
  ∀ e ∈ w.issuedSince (T.execSetting s w).2,
    e.request.command = .setFreq ∨ e.request.command = .setSamplerate → e.Complete

instance (T : Target) (w : World) (s : Setting) : Decidable (Delivers T w s) :=
  inferInstanceAs (Decidable (∀ e ∈ _, _ → _))

/-- A rate selection whose index, cut to 16 bits, means a zero-IF rate is one of a zero-IF rate. -/
def Target.MeansZeroIf (_T : Target) (w : World) : Setting → Prop
  | .setSamplerate samplerate =>
    let i := w.device.table.resolve samplerate
    ∀ h : i < w.device.table.count.toNat,
      w.device.table.ZeroIfAt (i % 2 ^ 16) → w.device.table.architecture i h = 0
  | _ => True

/-- The frequency is recorded also between the requests of a rate change. -/
def RaiseRecorded (w : World) : Setting → Prop
  | .setSamplerate samplerate =>
    ∀ h : w.device.table.resolve samplerate < w.device.table.count.toNat,
      Recorded (raiseLo (Target.selected w _ h)).2
  | _ => True

/-! ### The log -/

theorem lastFreq_cons_of_tunes {e : Exchange} {log : List Exchange} (h : e.Tunes) :
    lastFreq (e :: log) = some e.khz := by
  simp [lastFreq, h]

theorem lastFreq_append (es : List Exchange) {log : List Exchange} (h : ∀ e ∈ es, ¬ e.Tunes) :
    lastFreq (es ++ log) = lastFreq log := by
  have hn : es.find? (fun e => e.Tunes) = none := by simpa using h
  simp [lastFreq, List.find?_append, hn]

theorem lawful_append {t : RateTable} (es : List Exchange) {log : List Exchange} (h : Lawful t log)
    (htune : ∀ e ∈ es, ¬ e.Tunes) (hselect : ∀ e ∈ es, ¬ e.SelectsRate) :
    Lawful t (es ++ log) := by
  induction es with
  | nil => exact h
  | cons e es ih =>
    obtain ⟨he, hes⟩ := List.forall_mem_cons.1 htune
    obtain ⟨he', hes'⟩ := List.forall_mem_cons.1 hselect
    exact ⟨⟨fun ht => absurd ht he, fun hs => absurd hs he'⟩, ih hes hes'⟩

theorem setFreqRequest_khz (k : UInt32) (r : Reply) :
    (⟨setFreqRequest k, r⟩ : Exchange).khz = k.toNat :=
  setFreqRequest_payload k

theorem RateTable.floorAt_le (t : RateTable) (i : ℕ) : t.floorAt i ≤ 180 := by
  rw [floorAt]
  split <;> omega

variable {T : Target} {w : World}

theorem Lawful.tune {t : RateTable} {log : List Exchange} (h : Lawful t log) {k : UInt32}
    (r : Reply) (hk : t.floorAt (deviceIndex log) ≤ k.toNat) :
    Lawful t (⟨setFreqRequest k, r⟩ :: log) := by
  refine ⟨⟨fun _ => ⟨rfl, ?_⟩, fun hs => absurd hs.1 (by simp)⟩, h⟩
  rw [setFreqRequest_khz]
  exact hk

/-! ### What the driver knows -/

/-- What the driver knows about the receiver between two calls. -/
structure FloorKept (w : World) : Prop where
  lawful : Lawful w.device.table w.log
  recorded : (lastFreq w.log).getD 0 = w.device.freqKhz.toNat
  /-- If the device is in the zero-IF architecture, the driver has recorded that. -/
  zeroIf : w.device.table.ZeroIfAt (deviceIndex w.log) → w.device.isLowIf = 0
  /-- If a zero-IF rate is recorded, the receiver is not tuned below its floor. -/
  floor : w.device.isLowIf = 0 → w.device.freqKhz = 0 ∨ 180 ≤ w.device.freqKhz.toNat

theorem loLowKhz_le (T : Target) (d : Device) (freqHz : ℚ) :
    d.loLowKhz.toNat ≤ (T.loKhz d freqHz).toNat := by
  rw [Target.loKhz]
  split
  · exact le_rfl
  · rename_i h
    exact UInt32.le_iff_toNat_le.1 (UInt32.not_lt.1 h)

theorem FloorKept.floorAt_le (hw : FloorKept w) :
    w.device.table.floorAt (deviceIndex w.log) ≤ w.device.loLowKhz.toNat := by
  rw [RateTable.floorAt]
  split
  · rename_i hz
    simp [Device.loLowKhz, hw.zeroIf hz, minZeroIfLo]
  · rw [Device.loLowKhz]
    split <;> decide

/-- **A retune** keeps the law. -/
theorem Target.TuneRun.floorKept {freqHz : ℚ} {status : Status} {es : List Exchange} {d : Device}
    (h : T.TuneRun freqHz w status es d)
    (hc : ∀ e ∈ es, e.request.command = .setFreq ∨ e.request.command = .setSamplerate → e.Complete)
    (hw : FloorKept w) : FloorKept (w.advance es d) := by
  cases h with
  | kept h => exact ⟨hw.lawful, hw.recorded, hw.zeroIf, hw.floor⟩
  | refused h hs => exact absurd (hc _ List.mem_cons_self (.inl rfl)) (not_complete_setFreq hs)
  | sent h hs =>
    have htunes : (⟨setFreqRequest (T.loKhz w.device freqHz), w.bus w.log.length⟩ :
        Exchange).Tunes := ⟨rfl, hc _ (List.mem_cons_of_mem _ List.mem_cons_self) (.inl rfl)⟩
    have hfloor := loLowKhz_le T w.device freqHz
    refine ⟨?_, ?_, ?_, ?_⟩
    · exact lawful_append [_] (hw.lawful.tune _ (hw.floorAt_le.trans hfloor))
        (by simp [Exchange.Tunes]) (by simp [Exchange.SelectsRate])
    · rw [World.advance_log, List.cons_append, ← List.singleton_append,
        lastFreq_append _ (by simp [Exchange.Tunes]), List.cons_append,
        lastFreq_cons_of_tunes htunes, setFreqRequest_khz]
      rfl
    · rw [World.advance_log, deviceIndex_append (by simp [Exchange.SelectsRate])]
      exact hw.zeroIf
    · intro hzero
      have hzero : w.device.isLowIf = 0 := hzero
      refine .inr (le_trans ?_ hfloor)
      rw [Device.loLowKhz, if_neg (not_not.2 hzero)]
      rfl

/-- **Raising the local oscillator** keeps the law, and leaves it high enough for the rate that is
about to be selected. -/
theorem Target.RaiseRun.floorKept {i : ℕ} {h : i < w.device.table.count.toNat}
    {es : List Exchange} {d : Device} (hr : RaiseRun (selected w i h) es d)
    (hc : ∀ e ∈ es, e.request.command = .setFreq ∨ e.request.command = .setSamplerate → e.Complete)
    (hw : FloorKept w) :
    Lawful w.device.table (es ++ w.log) ∧
      (lastFreq (es ++ w.log)).getD 0 = d.freqKhz.toNat ∧
      (d.isLowIf = 0 → 180 ≤ d.freqKhz.toNat) := by
  cases hr with
  | kept hb =>
    refine ⟨hw.lawful, hw.recorded, ?_⟩
    intro hzero
    have hge : minZeroIfLo ≤ w.device.freqKhz := UInt32.not_lt.1 fun hlt => hb ⟨hzero, hlt⟩
    exact UInt32.le_iff_toNat_le.1 hge
  | raised hb hs =>
    have htunes : (⟨setFreqRequest minZeroIfLo, w.bus w.log.length⟩ : Exchange).Tunes :=
      ⟨rfl, hc _ List.mem_cons_self (.inl rfl)⟩
    refine ⟨hw.lawful.tune _ (w.device.table.floorAt_le _), ?_, fun _ => le_rfl⟩
    rw [List.singleton_append]
    exact congrArg (Option.getD · 0) (lastFreq_cons_of_tunes htunes)

/-- **A rate change** keeps the law if the device does not take its index for one of a zero-IF rate
when the driver does not. -/
theorem Target.SamplerateRun.floorKept {i : ℕ} {status : Status} {es : List Exchange} {d : Device}
    (h : T.SamplerateRun i w status es d)
    (hc : ∀ e ∈ es, e.request.command = .setFreq ∨ e.request.command = .setSamplerate → e.Complete)
    (hz : ∀ h : i < w.device.table.count.toNat,
      w.device.table.ZeroIfAt (i % 2 ^ 16) → w.device.table.architecture i h = 0)
    (hw : FloorKept w) : FloorKept (w.advance es d) := by
  cases h with
  | invalid h => exact ⟨hw.lawful, hw.recorded, hw.zeroIf, hw.floor⟩
  | notRaised h hb hs => exact absurd (hc _ List.mem_cons_self (.inl rfl)) (not_complete_setFreq hs)
  | rejected h es₀ d₀ hr hf =>
    exact absurd hf (hc _ List.mem_cons_self (.inr rfl)).not_failed
  | switched h es₀ d₀ hr hf status es d ht =>
    obtain ⟨hlawful, hrecorded, hhigh⟩ := hr.floorKept
      (fun e he => hc e (List.mem_append_right _
        (List.mem_cons_of_mem _ (List.mem_cons_of_mem _ he)))) hw
    obtain ⟨k, rfl⟩ := hr.device_eq
    have hselect : (⟨setSamplerateRequest i, w.bus (es₀ ++ w.log).length⟩ :
        Exchange).SelectsRate := ⟨rfl, (Exchange.complete_iff_of_length_zero rfl).2 hf⟩
    rw [← World.advance_advance w _ es _ d]
    refine ht.floorKept (fun e he => hc e (List.mem_append_left _ he)) ?_
    have hindex : (setSamplerateRequest i).index.toNat = i % 2 ^ 16 := by
      simp [setSamplerateRequest]
    have hallowed : Allowed w.device.table (es₀ ++ w.log)
        ⟨setSamplerateRequest i, w.bus (es₀ ++ w.log).length⟩ := by
      refine ⟨fun ht => absurd ht.1 (by simp), fun _ hzero => ?_⟩
      have h180 := hhigh (hz h (hindex ▸ hzero))
      cases hlast : lastFreq (es₀ ++ w.log) with
      | none =>
        rw [hlast, Option.getD_none] at hrecorded
        omega
      | some f =>
        rw [hlast, Option.getD_some] at hrecorded
        exact ⟨f, rfl, hrecorded ▸ h180⟩
    have hlast : ∀ g r : Reply, lastFreq (⟨getFilterGainRequest, g⟩ ::
        ⟨setSamplerateRequest i, r⟩ :: (es₀ ++ w.log)) = lastFreq (es₀ ++ w.log) := fun g r =>
      lastFreq_append [⟨getFilterGainRequest, g⟩, ⟨setSamplerateRequest i, r⟩]
        (by simp [Exchange.Tunes])
    have hdevice : ∀ g, deviceIndex (⟨getFilterGainRequest, g⟩ ::
        ⟨setSamplerateRequest i, w.bus (es₀ ++ w.log).length⟩ :: (es₀ ++ w.log)) = i % 2 ^ 16 :=
      fun g => (@deviceIndex_append [⟨getFilterGainRequest, g⟩] _
        (by simp [Exchange.SelectsRate])).trans ((deviceIndex_cons_of_selects hselect).trans hindex)
    refine ⟨?_, ?_, fun hzero => hz h ?_, fun hzero => .inr (hhigh hzero)⟩
    · exact lawful_append [_] ⟨hallowed, hlawful⟩ (by simp [Exchange.Tunes])
        (by simp [Exchange.SelectsRate])
    · exact (congrArg (Option.getD · 0) (hlast _ _)).trans hrecorded
    · rw [← hdevice]
      exact hzero

/-- **One call** keeps the law. -/
theorem floorKept_step {s : Setting} (hw : FloorKept w) (hc : Delivers T w s)
    (hz : T.MeansZeroIf w s) : FloorKept (T.execSetting s w).2 := by
  have key : ∀ freqHz w', FloorKept w' →
      (∀ e ∈ w'.issuedSince (T.setFreqDouble freqHz w').2,
        e.request.command = .setFreq ∨ e.request.command = .setSamplerate → e.Complete) →
        FloorKept (T.setFreqDouble freqHz w').2 := by
    intro freqHz w' hw' hc'
    obtain ⟨status, es, d, hx, h⟩ := T.setFreqDouble_run freqHz w'
    rw [hx, World.issuedSince_advance] at hc'
    rw [hx]
    exact h.floorKept hc' hw'
  have hkeep : ∀ f : Device → Device, (f w.device).table = w.device.table →
      (f w.device).freqKhz = w.device.freqKhz → (f w.device).isLowIf = w.device.isLowIf →
      FloorKept (w.update f) := by
    intro f htable hkhz hlow
    refine ⟨?_, ?_, ?_, ?_⟩ <;>
      simp only [World.update_device, World.update_log, htable, hkhz, hlow]
    exacts [hw.lawful, hw.recorded, hw.zeroIf, hw.floor]
  cases s with
  | setFreqDouble freqHz => exact key freqHz w hw hc
  | setFreq freqHz => exact key freqHz.toNat w hw hc
  | setCalibration ppb =>
    exact key w.device.freqHz (w.update _)
      (hkeep (fun d => { d with calibrationPpb := ppb }) rfl rfl rfl) hc
  | setLibDsp flag => exact hkeep (fun d => { d with enableDsp := flag }) rfl rfl rfl
  | setSamplerate samplerate =>
    obtain ⟨status, es, d, hx, h⟩ := T.setSamplerate_run samplerate w
    change ∀ e ∈ w.issuedSince (T.setSamplerate samplerate w).2, _ → _ at hc
    rw [hx, World.issuedSince_advance] at hc
    change FloorKept (T.setSamplerate samplerate w).2
    rw [hx]
    exact h.floorKept hc hz hw

theorem FloorKept.isRecorded (hw : FloorKept w) : Recorded w := by
  intro k hk
  have hrecorded := hw.recorded
  rw [Option.mem_def.1 hk] at hrecorded
  exact hrecorded

theorem Target.RaiseRun.raiseLo_eq {i : ℕ} {h : i < w.device.table.count.toNat}
    {es : List Exchange} {d : Device} (hr : RaiseRun (selected w i h) es d) :
    raiseLo (selected w i h) = (.success, w.advance es d) := by
  cases hr with
  | kept hb => exact if_neg hb
  | raised hb hs => exact (if_pos hb).trans (if_neg hs)

/-- The frequency is recorded between the requests of a rate change. -/
theorem raiseRecorded_step {s : Setting} (hw : FloorKept w) (hc : Delivers T w s) :
    RaiseRecorded w s := by
  cases s with
  | setSamplerate samplerate =>
    intro hi
    obtain ⟨status, es, d, hx, h⟩ := T.setSamplerate_run samplerate w
    change ∀ e ∈ w.issuedSince (T.setSamplerate samplerate w).2, _ → _ at hc
    rw [hx, World.issuedSince_advance] at hc
    cases h with
    | invalid h => exact absurd hi h
    | notRaised h hb hs =>
      exact absurd (hc _ List.mem_cons_self (.inl rfl)) (not_complete_setFreq hs)
    | rejected h es₀ d₀ hr hf =>
      exact absurd hf (hc _ List.mem_cons_self (.inr rfl)).not_failed
    | switched h es₀ d₀ hr hf status es d ht =>
      obtain ⟨-, hrecorded, -⟩ := hr.floorKept
        (fun e he => hc e (List.mem_append_right _
          (List.mem_cons_of_mem _ (List.mem_cons_of_mem _ he)))) hw
      rw [hr.raiseLo_eq]
      intro k hk
      rw [World.advance_log] at hk
      rw [Option.mem_def.1 hk] at hrecorded
      exact hrecorded
  | _ => trivial

theorem floorKept_of_opened (hw : w.Opened) : FloorKept w := by
  have htune : ∀ e ∈ w.log, ¬ e.Tunes := fun e he ht => (hw.log e he).1 ht.1
  have hselect : ∀ e ∈ w.log, ¬ e.SelectsRate := fun e he hs => (hw.log e he).2 hs.1
  have hlast : lastFreq (w.log ++ []) = none := lastFreq_append _ htune
  have hindex : deviceIndex (w.log ++ []) = 0 := deviceIndex_append hselect
  have hlawful : Lawful w.device.table (w.log ++ []) := lawful_append _ trivial htune hselect
  rw [List.append_nil] at hlast hindex hlawful
  refine ⟨hlawful, by rw [hlast, hw.freqKhz]; rfl, fun hzero => ?_, fun _ => .inl hw.freqKhz⟩
  rw [RateTable.ZeroIfAt, hindex, hw.atIndex.2] at hzero
  exact Option.some.inj hzero

theorem meansZeroIf_of_count_le (T : Target) (h : w.device.table.count.toNat ≤ 2 ^ 16)
    (s : Setting) : T.MeansZeroIf w s := by
  cases s with
  | setSamplerate samplerate =>
    intro hi hzero
    rw [Nat.mod_eq_of_lt (hi.trans_le h)] at hzero
    exact Option.some.inj ((RateTable.getElem?_architectures hi).symm.trans hzero)
  | _ => trivial

/-! ### Runs -/

theorem meets_meansZeroIf (T : Target) {calls : List Setting}
    (h : w.device.table.count.toNat ≤ 2 ^ 16) : T.settings.Meets T.MeansZeroIf w calls := by
  induction calls generalizing w with
  | nil => trivial
  | cons s calls ih =>
    rw [Target.settings, Machine.ofFun_meets_cons]
    refine ⟨meansZeroIf_of_count_le T h s, ih ?_⟩
    have htable : (T.execSetting s w).2.device.table = w.device.table := T.exec_table (.setting s) w
    rw [htable]
    exact h

theorem floorKept_run (T : Target) {calls : List Setting} (hw : w.Opened)
    (hc : T.settings.Meets (Delivers T) w calls) (hz : T.settings.Meets T.MeansZeroIf w calls) :
    T.settings.Always FloorKept w calls ∧ T.settings.Meets RaiseRecorded w calls := by
  have hstep : ∀ w s w', FloorKept w → Delivers T w s ∧ T.MeansZeroIf w s →
      T.settings.step w s = some w' → FloorKept w' := by
    intro w s w' hw hg hstep
    obtain rfl : (T.execSetting s w).2 = w' := Option.some.inj hstep
    exact floorKept_step hw hg.1 hg.2
  exact (hc.and hz).always_and hstep (fun w s hw hg => raiseRecorded_step hw hg.1)
    (floorKept_of_opened hw)

/-- **The receiver is never tuned below its floor**: in every run from what `airspyhf_open_init`
leaves, in which the tuning requests and the rate selections are complete, every message is lawful
and the last frequency sent is the one recorded.  The tables of the sample rates came in full or are
the default; where they are not, every rate selection means a zero-IF rate to the device only if it
does to the driver. -/
theorem always_lawful (T : Target) {h : Host} {serialNumber : UInt64} {fd : ℤ}
    {held : Multiset Resource} {o : Opened} {p' : Process} {calls : List Setting}
    (hopen : h.openInit serialNumber fd ⟨held, []⟩ = some (.success, some o, p'))
    (hc : T.settings.Meets (Delivers T) ⟨o.device, p'.log, h.bus⟩ calls)
    (hz : o.rates.EntriesKnown ∨
      T.settings.Meets T.MeansZeroIf ⟨o.device, p'.log, h.bus⟩ calls) :
    T.settings.Always (fun w => Lawful w.device.table w.log ∧ Recorded w)
        ⟨o.device, p'.log, h.bus⟩ calls ∧
      T.settings.Meets RaiseRecorded ⟨o.device, p'.log, h.bus⟩ calls := by
  cases Host.openInit_run hopen with
  | opened hf hg ho =>
    have hcut : T.settings.Meets T.MeansZeroIf ⟨o.device, p'.log, h.bus⟩ calls := by
      refine hz.elim (fun hknown => meets_meansZeroIf T ?_) id
      have hcount := ho.rates.count_lt hknown
      rw [ho.table_eq]
      exact hcount.le.trans (by norm_num)
    obtain ⟨halways, hmeets⟩ := floorKept_run T ho.opened hc hcut
    exact ⟨halways.mono fun w hw => ⟨hw.lawful, hw.isRecorded⟩, hmeets⟩

/-! ### A receiver that does everything it is asked -/

/-- The receiver does everything it is asked from now on. -/
def World.Obliges (w : World) : Prop := ∀ n, w.log.length ≤ n → w.bus n = .full fun _ => 0

theorem World.Obliges.advance (hw : w.Obliges) (es : List Exchange) (d : Device) :
    (w.advance es d).Obliges := by
  intro n hn
  refine hw n (le_trans ?_ hn)
  rw [World.advance_log, List.length_append]
  exact Nat.le_add_left _ _

theorem World.Obliges.complete (hw : w.Obliges) (q : Request) {n : ℕ} (hn : w.log.length ≤ n) :
    (⟨q, w.bus n⟩ : Exchange).Complete := by
  have hlt := q.length.toNat_lt
  have hmin : min (2 ^ 16) q.length.toNat = q.length.toNat := min_eq_right hlt.le
  rw [hw n hn]
  exact congrArg Nat.cast hmin

theorem Target.TuneRun.complete {freqHz : ℚ} {status : Status} {es : List Exchange} {d : Device}
    (h : T.TuneRun freqHz w status es d) (hw : w.Obliges) : ∀ e ∈ es, e.Complete := by
  cases h with
  | kept h => exact List.forall_mem_nil _
  | refused h hs => exact List.forall_mem_singleton.2 (hw.complete _ le_rfl)
  | sent h hs =>
    exact List.forall_mem_cons.2 ⟨hw.complete _ (Nat.le_succ _),
      List.forall_mem_singleton.2 (hw.complete _ le_rfl)⟩

theorem Target.RaiseRun.complete {i : ℕ} {h : i < w.device.table.count.toNat} {es : List Exchange}
    {d : Device} (hr : RaiseRun (selected w i h) es d) (hw : w.Obliges) : ∀ e ∈ es, e.Complete := by
  cases hr with
  | kept hb => exact List.forall_mem_nil _
  | raised hb hs => exact List.forall_mem_singleton.2 (hw.complete _ le_rfl)

theorem Target.SamplerateRun.complete {i : ℕ} {status : Status} {es : List Exchange} {d : Device}
    (h : T.SamplerateRun i w status es d) (hw : w.Obliges) : ∀ e ∈ es, e.Complete := by
  have hlater : ∀ (es₀ : List Exchange) (k : ℕ), w.log.length ≤ (es₀ ++ w.log).length + k := by
    intro es₀ k
    rw [List.length_append]
    omega
  cases h with
  | invalid h => exact List.forall_mem_nil _
  | notRaised h hb hs => exact List.forall_mem_singleton.2 (hw.complete _ le_rfl)
  | rejected h es₀ d₀ hr hf =>
    exact List.forall_mem_cons.2 ⟨hw.complete _ (hlater es₀ 0), hr.complete hw⟩
  | switched h es₀ d₀ hr hf status es d ht =>
    exact List.forall_mem_append.2 ⟨ht.complete (hw.advance _ _), List.forall_mem_cons.2
      ⟨hw.complete _ (hlater es₀ 1), List.forall_mem_cons.2
        ⟨hw.complete _ (hlater es₀ 0), hr.complete hw⟩⟩⟩

theorem World.Obliges.execSetting (hw : w.Obliges) (s : Setting) :
    ∃ es d, (T.execSetting s w).2 = w.advance es d ∧ ∀ e ∈ es, e.Complete := by
  have htune : ∀ freqHz (f : Device → Device), ∃ es d,
      (T.setFreqDouble freqHz (w.update f)).2 = w.advance es d ∧ ∀ e ∈ es, e.Complete := by
    intro freqHz f
    obtain ⟨status, es, d, hx, h⟩ := T.setFreqDouble_run freqHz (w.update f)
    exact ⟨es, d, congrArg Prod.snd hx, h.complete hw⟩
  cases s with
  | setFreqDouble freqHz => exact htune freqHz id
  | setFreq freqHz => exact htune freqHz.toNat id
  | setCalibration ppb => exact htune _ _
  | setLibDsp flag => exact ⟨[], _, rfl, List.forall_mem_nil _⟩
  | setSamplerate samplerate =>
    obtain ⟨status, es, d, hx, h⟩ := T.setSamplerate_run samplerate w
    exact ⟨es, d, congrArg Prod.snd hx, h.complete hw⟩

theorem World.Obliges.meets_delivers (hw : w.Obliges) (calls : List Setting) :
    T.settings.Meets (Delivers T) w calls := by
  induction calls generalizing w with
  | nil => trivial
  | cons s calls ih =>
    obtain ⟨es, d, hnext, hcomplete⟩ := hw.execSetting (T := T) s
    rw [Target.settings, Machine.ofFun_meets_cons, Delivers, hnext, World.issuedSince_advance]
    exact ⟨fun e he _ => hcomplete e he, ih (hw.advance es d)⟩

/-- A host with one receiver that sends the tables as given, and then does all that it is asked. -/
def Host.sending (replies : List Reply) (heap : Resource → ℕ → UInt8) : Host where
  devices := [.receiver []]
  grants _ := true
  answers _ := true
  configures _ := true
  claims _ := true
  selects _ := true
  bus n := replies.getD n (.full fun _ => 0)
  heap := heap
  stack _ := 0

theorem Host.Opening.obliges {replies : List Reply} {heap : Resource → ℕ → UInt8} {i : ℕ}
    {held : Multiset Resource} {p₁ p₂ p' : Process} {o : Opened}
    (ho : (Host.sending replies heap).Opening i ⟨held, []⟩ p₁ p₂ o p')
    (hsent : replies.length ≤ tableRequests ((Host.sending replies heap).replyAt ⟨held, []⟩)) :
    (World.mk o.device p'.log (Host.sending replies heap).bus).Obliges := by
  intro n hn
  have hlength : replies.length ≤ n := (hsent.trans ho.tableRequests_le).trans hn
  change replies.getD n _ = _
  rw [List.getD_eq_getElem?_getD, List.getElem?_eq_none hlength, Option.getD_none]

/-- The firmware sends a zero-IF and a low-IF rate, and no attenuator steps. -/
def Host.twoRatesSent : Host :=
  .sending [⟨none, 4, fun i => if i = 0 then 2 else 0⟩,
    ⟨none, 8, fun i => (leBytes 768000 ++ leBytes 192000).getD i 0⟩,
    ⟨none, 2, fun i => if i = 0 then 0 else 1⟩, .empty] fun _ _ => 0

/-- Down to the low-IF rate, to 100 kHz and back up to the zero-IF rate. -/
theorem sending_always_lawful : ∃ o p',
    Host.twoRatesSent.openInit 0 (-1) ⟨0, []⟩ = some (.success, some o, p') ∧
    Target.x8664.settings.Always (fun w => Lawful w.device.table w.log ∧ Recorded w)
        ⟨o.device, p'.log, Host.twoRatesSent.bus⟩
        [.setSamplerate 1, .setFreqDouble 100000, .setSamplerate 0] ∧
      Target.x8664.settings.Meets RaiseRecorded ⟨o.device, p'.log, Host.twoRatesSent.bus⟩
        [.setSamplerate 1, .setFreqDouble 100000, .setSamplerate 0] := by
  have hf : Host.twoRatesSent.Finds 0 (-1) 0 := ⟨rfl, rfl, rfl, by decide⟩
  obtain ⟨o, p', p₁, p₂, heq, ho⟩ :=
    Host.opening_of_fit (p := ⟨0, []⟩) (fun _ _ => rfl) hf (by decide)
  refine ⟨o, p', heq, always_lawful _ heq ?_ (.inl ?_)⟩
  · exact (ho.obliges (by decide)).meets_delivers _
  · exact ho.rates.entriesKnown_iff.2 (by decide)

/-! ### An entry that was never sent -/

theorem lawful_of_append {t : RateTable} (es : List Exchange) {log : List Exchange}
    (h : Lawful t (es ++ log)) :
    Lawful t log := by
  induction es with
  | nil => exact h
  | cons e es ih => exact ih h.2

/-- If the first call selects an index that means a low-IF rate to the driver and a zero-IF rate to
the device, that rate is selected before the receiver was ever tuned. -/
theorem not_lawful_of_cut (hw : w.Opened) (hfull : w.Obliges) {samplerate : UInt32} {i : ℕ}
    (hi : w.device.table.resolve samplerate = i) (h : i < w.device.table.count.toNat)
    (hlow : w.device.table.architecture i h ≠ 0) (hzero : w.device.table.ZeroIfAt (i % 2 ^ 16)) :
    ¬ T.settings.Always (fun w => Lawful w.device.table w.log ∧ Recorded w)
        w [.setSamplerate samplerate] := by
  subst hi
  have hkept : ∀ h,
      ¬ (Target.selected w (w.device.table.resolve samplerate) h).device.BelowZeroIf :=
    fun h hb => hlow hb.1
  obtain ⟨status, es, d, hx, hrun⟩ := T.setSamplerate_run samplerate w
  have hcomplete := hrun.complete hfull
  have hnext : (T.execSetting (.setSamplerate samplerate) w).2 = w.advance es d :=
    congrArg Prod.snd hx
  simp only [Target.settings, Machine.ofFun_always_cons, Machine.ofFun_always_nil, hnext]
  rintro ⟨-, hlawful, -⟩
  cases hrun with
  | invalid h' => exact h' h
  | notRaised h hb => exact hkept h hb
  | rejected h es₀ d₀ hr hf => exact absurd hf (hcomplete _ List.mem_cons_self).not_failed
  | switched h es₀ d₀ hr hf status es d ht =>
    cases hr with
    | raised hb => exact hkept h hb
    | kept hb =>
      have htable := ht.frame.table
      rw [World.advance_log, World.advance_device, htable, List.append_assoc] at hlawful
      -- the selection was the first message
      have hselect := (lawful_of_append [_] (lawful_of_append _ hlawful)).1.2
      obtain ⟨k, hk, -⟩ := hselect ⟨rfl, hfull.complete _ le_rfl⟩ (by simpa [setSamplerateRequest])
      have hlast : lastFreq (w.log ++ []) = none :=
        lastFreq_append _ fun e he ht => (hw.log e he).1 ht.1
      rw [List.append_nil] at hlast
      have hk : k ∈ lastFreq w.log := hk
      rw [hlast] at hk
      cases hk

/-- What the heap holds: the byte of the last architecture is not zero. -/
def Host.lastLowIf : Resource → ℕ → UInt8
  | .architectures, 65536 => 1
  | _, _ => 0

/-- The firmware announces `2 ^ 16 + 1` rates, for which the driver asks for one word, and every
request completes but that for the attenuator steps. -/
def Host.oneOfManySent : Host :=
  .sending [⟨none, 4, fun i => if i = 0 ∨ i = 2 then 1 else 0⟩, .full fun _ => 0,
    .full fun _ => 0, .empty] lastLowIf

theorem RateMemory.getElem?_architectures {t : RateMemory} {i : ℕ} (hi : i < t.count.toNat) :
    t.table.architectures[i]? = some (t.architectures.byte i) := by
  rw [table, List.getElem?_map, List.getElem?_range hi]
  rfl

/-- Every rate of that table is zero, and so is its first architecture; the last is not. -/
theorem oneOfManySent_table {i : ℕ} {p₁ p₂ p' : Process} {o : Opened}
    (ho : Host.oneOfManySent.Opening i ⟨0, []⟩ p₁ p₂ o p') :
    o.device.table.count.toNat = 65537 ∧ (∀ x ∈ o.device.table.rates, x = 0) ∧
      o.device.table.architectures[0]? = some 0 ∧
      o.device.table.architectures[65536]? = some 1 := by
  have h₁ : (Host.oneOfManySent.replyAt ⟨0, []⟩ 0).Passes 4 := by decide
  have hcount : (Host.oneOfManySent.replyAt ⟨0, []⟩ 0).announced = 65537 := by decide
  have h₂ : (Host.oneOfManySent.replyAt ⟨0, []⟩ 1).Passes (tableLength 65537).toNat := by decide
  have h₃ : (Host.oneOfManySent.replyAt ⟨0, []⟩ 2).Passes (tableLength 65537).toNat := by decide
  have hloaded := ho.rates.eq_of_passes h₁ (hcount ▸ h₂) (hcount ▸ h₃)
  have htable : o.rates.count.toNat = 65537 := by
    rw [hloaded]
    exact congrArg UInt32.toNat hcount
  have hbyte : ∀ i, o.rates.rates.byte i = 0 := by
    intro i
    rw [hloaded, Memory.byte, Memory.overwrite_cell]
    split <;> rfl
  have hfirst : o.rates.architectures.byte 0 = 0 := by
    rw [hloaded, Memory.byte, Memory.overwrite_cell]
    split <;> rfl
  have hlast : o.rates.architectures.byte 65536 = 1 := by
    rw [hloaded, Memory.byte, Memory.overwrite_cell, if_neg]
    · rfl
    · change ¬ 65536 < (Host.oneOfManySent.replyAt ⟨0, []⟩ 2).moved (tableLength
        (Host.oneOfManySent.replyAt ⟨0, []⟩ 0).announced).toNat
      decide
  rw [ho.table_eq]
  refine ⟨htable, ?_, ?_, ?_⟩
  · intro x hx
    obtain ⟨i, -, rfl⟩ := List.mem_map.1 hx
    simp only [Memory.word, hbyte]
    decide
  · rw [RateMemory.getElem?_architectures (by omega), hfirst]
  · rw [RateMemory.getElem?_architectures (by omega), hlast]

/-- The device takes the index `2 ^ 16` for the zero-IF rate `0`, and the driver reads a low-IF
architecture from memory that nothing was written to. -/
theorem unsent_not_lawful : ∃ o p',
    Host.oneOfManySent.openInit 0 (-1) ⟨0, []⟩ = some (.success, some o, p') ∧
    Target.x8664.settings.Meets (Delivers .x8664)
      ⟨o.device, p'.log, Host.oneOfManySent.bus⟩ [.setSamplerate 65536] ∧
    ¬ Target.x8664.settings.Always (fun w => Lawful w.device.table w.log ∧ Recorded w)
      ⟨o.device, p'.log, Host.oneOfManySent.bus⟩ [.setSamplerate 65536] := by
  have hf : Host.oneOfManySent.Finds 0 (-1) 0 := ⟨rfl, rfl, rfl, by decide⟩
  obtain ⟨o, p', p₁, p₂, heq, ho⟩ :=
    Host.opening_of_fit (p := ⟨0, []⟩) (fun _ _ => rfl) hf (by decide)
  have hobliges := ho.obliges (by decide)
  refine ⟨o, p', heq, hobliges.meets_delivers _, ?_⟩
  obtain ⟨hcount, hrates, hfirst, hlast⟩ := oneOfManySent_table ho
  have hindex : o.device.table.resolve 65536 = 65536 := by
    have hnone : (o.device.table.rates.take o.device.table.count.toNat).findIdx? (· == 65536) =
        none := by
      refine List.findIdx?_eq_none_iff.2 fun x hx => ?_
      rw [hrates x (List.mem_of_mem_take hx)]
      rfl
    rw [RateTable.resolve, if_pos (by decide), hnone]
    rfl
  have hi : 65536 < o.device.table.count.toNat := by
    rw [hcount]
    decide
  refine not_lawful_of_cut ho.opened hobliges hindex hi ?_ hfirst
  have harchitecture := (RateTable.getElem?_architectures hi).symm.trans hlast
  rw [Option.some.inj harchitecture]
  decide

end AirspyHF
