import AirspyHF.Device.Basic

/-!
# The configuration page in flash

The receiver keeps one 256-byte page for the driver.  `airspyhf_flash_configuration` writes a
16-byte little-endian record, padded with zeros, over it; `airspyhf_open` reads the page back with
`airspyhf_config_read`.
-/

namespace AirspyHF

/-- `CALIBRATION_MAGIC`. -/
def calibrationMagic : UInt32 := 0xA5CA71B0

/-- The size of the page. -/
def configSize : ℕ := 256

/-- The record stored in flash. -/
structure FlashConfig where
  /-- `magic_number`. -/
  magicNumber : UInt32
  /-- `calibration_ppb`. -/
  calibrationPpb : Int32
  /-- `calibration_vctcxo`. -/
  calibrationVctcxo : Int32
  /-- `frontend_options`. -/
  frontendOptions : UInt32

/-- The bytes of a word in memory, least significant first. -/
def leBytes (x : UInt32) : List UInt8 := (C.beBytes x).reverse

theorem exists_leBytes (x : UInt32) :
    ∃ b₀ b₁ b₂ b₃, leBytes x = [b₀, b₁, b₂, b₃] ∧ C.leWord b₀ b₁ b₂ b₃ = x := by
  obtain ⟨b₀, b₁, b₂, b₃, hbytes, hword⟩ := C.leWord_beBytes x
  exact ⟨b₀, b₁, b₂, b₃, by rw [leBytes, hbytes]; rfl, hword⟩

/-- The bytes of the record in memory. -/
def FlashConfig.bytes (c : FlashConfig) : List UInt8 :=
  leBytes c.magicNumber ++ leBytes c.calibrationPpb.toUInt32 ++
    leBytes c.calibrationVctcxo.toUInt32 ++ leBytes c.frontendOptions

/-- The request that writes the page: the caller's bytes, padded with zeros. -/
def configWriteRequest (buffer : List UInt8) : Request :=
  ⟨.configWrite, 0, 0,
    buffer.take configSize ++ List.replicate (configSize - (buffer.take configSize).length) 0, 256⟩

theorem length_configWriteRequest (buffer : List UInt8) :
    (configWriteRequest buffer).payload.length = (configWriteRequest buffer).length.toNat := by
  have htake : (buffer.take configSize).length ≤ 256 := List.length_take_le ..
  change (_ ++ List.replicate (256 - _) (0 : UInt8)).length = 256
  rw [List.length_append, List.length_replicate]
  omega

/-- The request that reads the page. -/
def configReadRequest : Request := ⟨.configRead, 0, 0, [], 256⟩

/-- `airspyhf_config_write`. -/
def configWrite (buffer : List UInt8) (w : World) : Status × World :=
  let e := w.exchange (configWriteRequest buffer)
  let w := w.issue (configWriteRequest buffer)
  if C.ltSizeT e.result configSize then (.error, w) else (.success, w)

/-- `airspyhf_config_read`; `stack` is what the local buffer holds before the transfer.  The third
component is what the caller finds in its buffer of `length` bytes. -/
def configRead (stack : Fin 256 → UInt8) (length : ℕ) (w : World) : Status × World × List UInt8 :=
  let e := w.exchange configReadRequest
  let w := w.issue configReadRequest
  let buffer := (List.ofFn (e.reply.fill 256 stack)).take (min length configSize)
  if C.ltSizeT e.result configSize then (.error, w, buffer) else (.success, w, buffer)

/-- The record that describes the present settings. -/
def Device.flashConfig (d : Device) : FlashConfig where
  magicNumber := calibrationMagic
  calibrationPpb := d.calibrationPpb
  calibrationVctcxo := d.calibrationVctcxo
  frontendOptions := d.frontendOptions

/-- `airspyhf_flash_configuration`. -/
def flashConfiguration (w : World) : Status × World :=
  if w.device.stream.isStreaming then (.error, w)
  else
    let (status, w) := configWrite w.device.flashConfig.bytes w
    if status ≠ .success then (.error, w) else (.success, w)

/-- Everything a call of `airspyhf_flash_configuration` can do: its result and the requests it
issues.  It leaves the device as it was. -/
inductive FlashRun (w : World) : Status → List Exchange → Prop
  /-- Refused while streaming. -/
  | streaming (h : w.device.stream.isStreaming = true) : FlashRun w .error []
  /-- The page comes back short. -/
  | refused (h : w.device.stream.isStreaming = false)
      (hs : C.ltSizeT ((w.bus w.log.length).result configSize) configSize) :
      FlashRun w .error [⟨configWriteRequest w.device.flashConfig.bytes, w.bus w.log.length⟩]
  /-- The page passes the check. -/
  | written (h : w.device.stream.isStreaming = false)
      (hs : ¬ C.ltSizeT ((w.bus w.log.length).result configSize) configSize) :
      FlashRun w .success [⟨configWriteRequest w.device.flashConfig.bytes, w.bus w.log.length⟩]

theorem flashConfiguration_run (w : World) :
    ∃ status es, flashConfiguration w = (status, w.advance es w.device) ∧ FlashRun w status es := by
  unfold flashConfiguration configWrite
  by_cases h : w.device.stream.isStreaming = true
  · rw [if_pos h]
    exact ⟨_, _, rfl, .streaming h⟩
  · have hf := Bool.eq_false_iff.2 h
    rw [if_neg h]
    by_cases hs :
        C.ltSizeT (w.exchange (configWriteRequest w.device.flashConfig.bytes)).result configSize
    · simp only [if_pos hs]
      exact ⟨_, _, rfl, .refused hf hs⟩
    · simp only [if_neg hs]
      exact ⟨_, _, rfl, .written hf hs⟩

/-- A device that does not stream writes its settings, whatever becomes of the request. -/
theorem flashConfiguration_eq {w : World} (hs : w.device.stream.isStreaming = false) :
    (flashConfiguration w).2 = w.issue (configWriteRequest w.device.flashConfig.bytes) := by
  obtain ⟨status, es, heq, hrun⟩ := flashConfiguration_run w
  rw [heq]
  cases hrun with
  | streaming h => exact absurd (hs.symm.trans h) Bool.false_ne_true
  | refused => rfl
  | written => rfl

end AirspyHF
