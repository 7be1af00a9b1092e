import AirspyHF.Machine.Basic
import AirspyHF.Device.Flash
import AirspyHF.Device.Samplerate
import AirspyHF.Device.Streaming

/-!
# Sequences of calls

An application drives an opened device by a sequence of calls.  `Setting` is a call that tunes the
receiver, `Call` is any of the calls modelled here; both run as machines on `World`, whose bus
decides the outcome of every request.
-/

namespace AirspyHF

/-- A call that tunes the receiver. -/
inductive Setting where
  | setFreqDouble (freqHz : ℚ)
  | setFreq (freqHz : UInt32)
  | setCalibration (ppb : Int32)
  | setSamplerate (samplerate : UInt32)
  | setLibDsp (flag : UInt8)

/-- A call on an opened device. -/
inductive Call where
  | setting (s : Setting)
  | start (callback ctx : Pointer) (o : StartOutcomes)
  | stop (others : Stream → Stream)
  | flashConfiguration

namespace Target

variable (T : Target)

/-- Execute a tuning call. -/
def execSetting : Setting → World → Status × World
  | .setFreqDouble freqHz => T.setFreqDouble freqHz
  | .setFreq freqHz => T.setFreq freqHz
  | .setCalibration ppb => T.setCalibration ppb
  | .setSamplerate samplerate => T.setSamplerate samplerate
  | .setLibDsp flag => AirspyHF.setLibDsp flag

/-- Execute a call. -/
def exec : Call → World → Status × World
  | .setting s => T.execSetting s
  | .start callback ctx o => AirspyHF.start callback ctx o
  | .stop others => AirspyHF.stop others
  | .flashConfiguration => AirspyHF.flashConfiguration

/-- The machine of the tuning calls. -/
def settings : Machine World Setting := .ofFun fun w s => (T.execSetting s w).2

/-- The machine of all calls. -/
def calls : Machine World Call := .ofFun fun w c => (T.exec c w).2

end Target

/-- Every request issued by the call was complete. -/
def AllComplete (T : Target) (w : World) (s : Setting) : Prop :=
  ∀ e ∈ w.issuedSince (T.execSetting s w).2, e.Complete

instance (T : Target) (w : World) (s : Setting) : Decidable (AllComplete T w s) :=
  inferInstanceAs (Decidable (∀ e ∈ _, _))

/-- The recorded rate and architecture are the entries of the table at the index. -/
def Device.AtIndex (d : Device) (i : ℕ) : Prop :=
  d.table.rates[i]? = some d.currentSamplerate ∧ d.table.architectures[i]? = some d.isLowIf

instance (d : Device) (i : ℕ) : Decidable (d.AtIndex i) := inferInstanceAs (Decidable (_ ∧ _))

/-- The state `airspyhf_open` leaves behind: untuned, at the first rate of the table, with no
tuning request and no rate selection issued yet. -/
structure World.Opened (w : World) : Prop where
  freqHz : w.device.freqHz = 0
  freqKhz : w.device.freqKhz = 0
  freqDeltaHz : w.device.freqDeltaHz = 0
  freqShift : w.device.freqShift = 0
  enableDsp : w.device.enableDsp = 1
  filterGain : w.device.filterGain = 1
  optimalPoint : w.device.optimalPoint = 0
  vec : w.device.vec = (1, 0)
  atIndex : w.device.AtIndex 0
  log : ∀ e ∈ w.log, e.request.command ≠ .setFreq ∧ e.request.command ≠ .setSamplerate

/-- The rate table assumed when the firmware does not report one: a single zero-IF rate. -/
def RateTable.fallback : RateTable where
  count := 1
  rates := [768000]
  architectures := [0]
  count_le_rates := by decide
  count_le_architectures := by decide

/-- A rate table with a zero-IF and a low-IF rate. -/
def RateTable.twoRates : RateTable where
  count := 2
  rates := [768000, 192000]
  architectures := [0, 1]
  count_le_rates := by decide
  count_le_architectures := by decide

/-- The device `airspyhf_open` leaves behind when there is no valid calibration in flash. -/
def Device.fresh (t : RateTable) : Device where
  table := t
  currentSamplerate := t.rates.getD 0 0
  freqHz := 0
  freqKhz := 0
  freqDeltaHz := 0
  freqShift := 0
  calibrationPpb := 0
  calibrationVctcxo := 0
  frontendOptions := 0
  optimalPoint := 0
  enableDsp := 1
  isLowIf := t.architectures.getD 0 0
  filterGain := 1
  vec := (1, 0)
  iqBalancer := ⟨fftBins / 2, false⟩
  stream := .initial

/-- A freshly opened device on the given bus. -/
def World.fresh (t : RateTable) (bus : ℕ → Reply) : World := ⟨.fresh t, [], bus⟩

/-- A freshly opened device that answers every request in full. -/
def World.obliging (t : RateTable) : World := .fresh t fun _ => .full fun _ => 0

theorem World.opened_fresh {t : RateTable} (h : 0 < t.count.toNat) (bus : ℕ → Reply) :
    (World.fresh t bus).Opened := by
  have hr := h.trans_le t.count_le_rates
  have ha := h.trans_le t.count_le_architectures
  refine ⟨rfl, rfl, rfl, rfl, rfl, rfl, rfl, rfl, ⟨?_, ?_⟩, by simp [World.fresh]⟩ <;>
    simp [World.fresh, Device.fresh, List.getD_eq_getElem?_getD, hr, ha]

end AirspyHF
