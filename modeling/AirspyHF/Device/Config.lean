import AirspyHF.Device.Flash

/-!
# The stored settings

`airspyhf_open` decodes the first bytes of the configuration page and applies what it finds
(`loadConfig`); the calls that change a stored setting tell the device at once.

`pageAfter` is the receiver's side: what the page holds after some requests.  A write that is
answered in full is in the page afterwards; one that fails or comes back short may be there or not.
-/

namespace AirspyHF

/-! ### The record in memory -/

/-- The word at `i` of a text of bytes. -/
def wordAt (bs : List UInt8) (i : ℕ) : UInt32 :=
  C.leWord (bs.getD i 0) (bs.getD (i + 1) 0) (bs.getD (i + 2) 0) (bs.getD (i + 3) 0)

/-- The record that the bytes in memory represent. -/
def FlashConfig.ofBytes (bs : List UInt8) : FlashConfig where
  magicNumber := wordAt bs 0
  calibrationPpb := (wordAt bs 4).toInt32
  calibrationVctcxo := (wordAt bs 8).toInt32
  frontendOptions := wordAt bs 12

/-- The record at the start of a page. -/
def FlashConfig.ofPage (page : Fin 256 → UInt8) : FlashConfig :=
  ofBytes ((List.ofFn page).take 16)

theorem FlashConfig.ofBytes_bytes (c : FlashConfig) (pad : List UInt8) :
    ofBytes (c.bytes ++ pad) = c := by
  obtain ⟨magic, ppb, vctcxo, options⟩ := c
  obtain ⟨a₀, a₁, a₂, a₃, ha, hmagic⟩ := exists_leBytes magic
  obtain ⟨b₀, b₁, b₂, b₃, hb, hppb⟩ := exists_leBytes ppb.toUInt32
  obtain ⟨c₀, c₁, c₂, c₃, hc, hvctcxo⟩ := exists_leBytes vctcxo.toUInt32
  obtain ⟨d₀, d₁, d₂, d₃, hd, hoptions⟩ := exists_leBytes options
  simp only [bytes, ha, hb, hc, hd, List.cons_append, List.nil_append, ofBytes,
    FlashConfig.mk.injEq]
  exact ⟨hmagic, congrArg UInt32.toInt32 hppb, congrArg UInt32.toInt32 hvctcxo, hoptions⟩

theorem leBytes_wordAt {bs : List UInt8} {i : ℕ} (h : i + 4 ≤ bs.length) :
    leBytes (wordAt bs i) = (bs.drop i).take 4 := by
  have hget : ∀ k, bs.getD (i + k) 0 = (bs.drop i).getD k 0 := fun k => by
    rw [List.getD_eq_getElem?_getD, List.getD_eq_getElem?_getD, List.getElem?_drop]
  have hlength : 4 ≤ (bs.drop i).length := by
    rw [List.length_drop]
    omega
  have hzero : bs.getD i 0 = (bs.drop i).getD 0 0 := hget 0
  rw [leBytes, wordAt, C.beBytes_leWord, hzero, hget 1, hget 2, hget 3]
  generalize bs.drop i = tail at hlength
  rcases tail with _ | ⟨b₀, _ | ⟨b₁, _ | ⟨b₂, _ | ⟨b₃, tail⟩⟩⟩⟩
  case cons.cons.cons.cons => rfl
  all_goals simp at hlength

theorem FlashConfig.bytes_ofBytes {bs : List UInt8} (h : 16 ≤ bs.length) :
    (ofBytes bs).bytes = bs.take 16 := by
  have hword : ∀ i, i + 4 ≤ 16 → leBytes (wordAt bs i) = (bs.drop i).take 4 := fun i hi =>
    leBytes_wordAt (by omega)
  calc (ofBytes bs).bytes
      = leBytes (wordAt bs 0) ++ leBytes (wordAt bs 4) ++ leBytes (wordAt bs 8) ++
          leBytes (wordAt bs 12) := rfl
    _ = bs.take 16 := by
      rw [hword 0 (by omega), hword 4 (by omega), hword 8 (by omega), hword 12 (by omega),
        List.drop_zero, ← List.take_add, ← List.take_add, ← List.take_add]

/-! ### The calls -/

/-- The request of `airspyhf_set_vctcxo_calibration`. -/
def setVctcxoRequest (vc : UInt16) : Request := ⟨.setVctcxoCalibration, vc, 0, [], 0⟩

/-- The request of `airspyhf_set_frontend_options`: the flags are split over `wValue` and
`wIndex`. -/
def setFrontendOptionsRequest (flags : UInt32) : Request :=
  ⟨.setFrontendOptions, (flags &&& 0xffff).toUInt16, (flags >>> 16).toUInt16, [], 0⟩

theorem setFrontendOptionsRequest_flags (flags : UInt32) :
    (setFrontendOptionsRequest flags).value.toNat +
      2 ^ 16 * (setFrontendOptionsRequest flags).index.toNat = flags.toNat := by
  have hlt := flags.toNat_lt
  simp [setFrontendOptionsRequest, Nat.shiftRight_eq_div_pow, Nat.and_two_pow_sub_one_eq_mod _ 16]
  omega

/-- `airspyhf_set_vctcxo_calibration`. -/
def setVctcxoCalibration (vc : UInt16) (w : World) : Status × World :=
  let w := w.update fun d => { d with calibrationVctcxo := vc.toUInt32.toInt32 }
  (if (w.exchange (setVctcxoRequest vc)).result < 0 then .error else .success,
    w.issue (setVctcxoRequest vc))

/-- `airspyhf_set_frontend_options`. -/
def setFrontendOptions (flags : UInt32) (w : World) : Status × World :=
  let w := w.update fun d => { d with frontendOptions := flags }
  (if (w.exchange (setFrontendOptionsRequest flags)).result < 0 then .error else .success,
    w.issue (setFrontendOptionsRequest flags))

@[simp] theorem setVctcxoCalibration_device (vc : UInt16) (w : World) :
    (setVctcxoCalibration vc w).2.device =
      { w.device with calibrationVctcxo := vc.toUInt32.toInt32 } := rfl

@[simp] theorem setFrontendOptions_device (flags : UInt32) (w : World) :
    (setFrontendOptions flags w).2.device = { w.device with frontendOptions := flags } := rfl

namespace Device

variable (d : Device)

/-- `airspyhf_get_calibration`. -/
def getCalibration : Int32 := d.calibrationPpb

/-- `airspyhf_get_vctcxo_calibration`. -/
def getVctcxoCalibration : UInt16 := d.calibrationVctcxo.toUInt32.toUInt16

/-- `airspyhf_get_frontend_options`. -/
def getFrontendOptions : UInt32 := d.frontendOptions

/-- The settings that `airspyhf_open` assumes when it finds none. -/
def withoutConfig : Device :=
  { d with calibrationPpb := 0, calibrationVctcxo := 0, frontendOptions := 0 }

end Device

/-- What `airspyhf_open` does with a stored record. -/
def applyConfig (c : FlashConfig) (w : World) : World :=
  if c.magicNumber = calibrationMagic then
    let w := w.update fun d => { d with calibrationPpb := c.calibrationPpb }
    let w := (setVctcxoCalibration c.calibrationVctcxo.toUInt32.toUInt16 w).2
    (setFrontendOptions c.frontendOptions w).2
  else w.update .withoutConfig

/-- The part of `airspyhf_open_init` that loads the stored settings. -/
def loadConfig (stack : Fin 256 → UInt8) (w : World) : World :=
  match configRead stack 16 w with
  | (.success, w, config) => applyConfig (.ofBytes config) w
  | (_, w, _) => w.update .withoutConfig

theorem loadConfig_eq (stack : Fin 256 → UInt8) (w : World) : loadConfig stack w =
    if C.ltSizeT ((w.bus w.log.length).result 256) 256 then
      (w.issue configReadRequest).update .withoutConfig
    else applyConfig (FlashConfig.ofPage ((w.bus w.log.length).fill 256 stack))
      (w.issue configReadRequest) := by
  by_cases hs : C.ltSizeT ((w.bus w.log.length).result 256) 256
  · have hread : configRead stack 16 w = (.error, w.issue configReadRequest,
        (List.ofFn ((w.bus w.log.length).fill 256 stack)).take 16) := if_pos hs
    rw [if_pos hs, loadConfig, hread]
  · have hread : configRead stack 16 w = (.success, w.issue configReadRequest,
        (List.ofFn ((w.bus w.log.length).fill 256 stack)).take 16) := if_neg hs
    rw [if_neg hs, loadConfig, hread]
    rfl

theorem loadConfig_frame (stack : Fin 256 → UInt8) (w : World) : ∃ ppb vctcxo options,
    (loadConfig stack w).device = { w.device with
      calibrationPpb := ppb, calibrationVctcxo := vctcxo, frontendOptions := options } := by
  rw [loadConfig_eq]
  split
  · exact ⟨0, 0, 0, rfl⟩
  · generalize FlashConfig.ofPage _ = c
    unfold applyConfig
    split
    · rw [setFrontendOptions_device, setVctcxoCalibration_device]
      exact ⟨c.calibrationPpb, _, c.frontendOptions, rfl⟩
    · exact ⟨0, 0, 0, rfl⟩

/-! ### The settings -/

/-- The stored settings, as the calls of the driver have them. -/
structure Stored where
  ppb : Int32
  vctcxo : UInt16
  frontendOptions : UInt32
  deriving DecidableEq

/-- What the getters return. -/
def Device.stored (d : Device) : Stored :=
  ⟨d.getCalibration, d.getVctcxoCalibration, d.getFrontendOptions⟩

/-- The settings that the driver takes from a record. -/
def FlashConfig.stored (c : FlashConfig) : Stored :=
  if c.magicNumber = calibrationMagic then
    ⟨c.calibrationPpb, c.calibrationVctcxo.toUInt32.toUInt16, c.frontendOptions⟩
  else ⟨0, 0, 0⟩

/-- The record that a device with the settings writes. -/
def Stored.config (s : Stored) : FlashConfig :=
  ⟨calibrationMagic, s.ppb, s.vctcxo.toUInt32.toInt32, s.frontendOptions⟩

/-- The settings that `airspyhf_open` takes from a reply to the request for the page. -/
def Reply.stored (stack : Fin 256 → UInt8) (r : Reply) : Stored :=
  if C.ltSizeT (r.result 256) 256 then ⟨0, 0, 0⟩ else (FlashConfig.ofPage (r.fill 256 stack)).stored

theorem Stored.stored_config (s : Stored) : s.config.stored = s := by
  have hvctcxo : s.vctcxo.toUInt32.toInt32.toUInt32.toUInt16 = s.vctcxo :=
    UInt16.toUInt16_toUInt32 s.vctcxo
  have hstored : s.config.stored = ⟨s.ppb, s.vctcxo.toUInt32.toInt32.toUInt32.toUInt16,
    s.frontendOptions⟩ := if_pos rfl
  rw [hstored, hvctcxo]

theorem loadConfig_device (stack : Fin 256 → UInt8) (w : World) :
    (loadConfig stack w).device.stored = (w.bus w.log.length).stored stack ∧
    (loadConfig stack w).device.flashConfig = ((w.bus w.log.length).stored stack).config := by
  rw [loadConfig_eq, Reply.stored]
  by_cases hs : C.ltSizeT ((w.bus w.log.length).result 256) 256
  · rw [if_pos hs, if_pos hs]
    exact ⟨rfl, rfl⟩
  · rw [if_neg hs, if_neg hs, applyConfig, FlashConfig.stored]
    by_cases hm : (FlashConfig.ofPage ((w.bus w.log.length).fill 256 stack)).magicNumber =
        calibrationMagic
    · rw [if_pos hm, if_pos hm]
      refine ⟨congrArg (Stored.mk _ · _) ?_, rfl⟩
      exact UInt16.toUInt16_toUInt32 _
    · rw [if_neg hm, if_neg hm]
      exact ⟨rfl, rfl⟩

/-- Loading the stored settings asks for the page first; what follows are the two settings. -/
theorem loadConfig_log (stack : Fin 256 → UInt8) (w : World) : ∃ es,
    (loadConfig stack w).log = es ++ w.exchange configReadRequest :: w.log ∧ ∀ e ∈ es,
      e.request.command = .setVctcxoCalibration ∨ e.request.command = .setFrontendOptions := by
  rw [loadConfig_eq]
  split
  · exact ⟨[], rfl, List.forall_mem_nil _⟩
  · unfold applyConfig
    split
    · refine ⟨[_, _], rfl, ?_⟩
      rw [List.forall_mem_cons, List.forall_mem_singleton]
      exact ⟨.inr rfl, .inl rfl⟩
    · exact ⟨[], rfl, List.forall_mem_nil _⟩

theorem loadConfig_sends {stack : Fin 256 → UInt8} {w : World}
    (hs : ¬ C.ltSizeT ((w.bus w.log.length).result 256) 256)
    (hm : (FlashConfig.ofPage ((w.bus w.log.length).fill 256 stack)).magicNumber =
      calibrationMagic) : ∃ e₁ e₂, (loadConfig stack w).log = e₂ :: e₁ ::
        w.exchange configReadRequest :: w.log ∧
      e₁.request = setVctcxoRequest ((w.bus w.log.length).stored stack).vctcxo ∧
      e₂.request =
        setFrontendOptionsRequest ((w.bus w.log.length).stored stack).frontendOptions := by
  rw [loadConfig_eq, if_neg hs, applyConfig, if_pos hm, Reply.stored, if_neg hs,
    FlashConfig.stored, if_pos hm]
  exact ⟨_, _, rfl, rfl, rfl⟩

/-! ### The page -/

/-- What the page holds after some requests (most recent first), if it held `image` before: a write
reaches it if `lands` says so for its number. -/
def pageAfter (image : Fin 256 → UInt8) (lands : ℕ → Bool) : List Exchange → Fin 256 → UInt8
  | [] => image
  | e :: log =>
    if e.request.command = .configWrite ∧ lands log.length then fun i => e.request.payload.getD i 0
    else pageAfter image lands log

/-- The receiver answers the requests of the log from its page: a read sends what the page holds,
and a write that is answered in full is in the page afterwards. -/
def KeepsPage (image : Fin 256 → UInt8) (lands : ℕ → Bool) : List Exchange → Prop
  | [] => True
  | e :: log =>
    (e.request.command = .configRead →
      ∀ i : Fin 256, e.reply.data i = pageAfter image lands log i) ∧
    (e.request.command = .configWrite → e.Complete → lands log.length = true) ∧
    KeepsPage image lands log

section Page

variable {image : Fin 256 → UInt8} {lands : ℕ → Bool} {es log : List Exchange}

theorem pageAfter_append (hes : ∀ e ∈ es, e.request.command ≠ .configWrite) :
    pageAfter image lands (es ++ log) = pageAfter image lands log := by
  induction es with
  | nil => rfl
  | cons e es ih =>
    obtain ⟨he, hes⟩ := List.forall_mem_cons.1 hes
    rw [List.cons_append, pageAfter, if_neg fun hw => he hw.1]
    exact ih hes

theorem KeepsPage.of_append (hk : KeepsPage image lands (es ++ log)) :
    KeepsPage image lands log := by
  induction es with
  | nil => exact hk
  | cons e es ih => exact ih hk.2.2

theorem KeepsPage.append (hk : KeepsPage image lands log)
    (hes : ∀ e ∈ es, e.request.command ≠ .configWrite)
    (hread : ∀ e ∈ es, e.request.command = .configRead →
      ∀ i : Fin 256, e.reply.data i = pageAfter image lands log i) :
    KeepsPage image lands (es ++ log) := by
  induction es with
  | nil => exact hk
  | cons e es ih =>
    obtain ⟨he, hes⟩ := List.forall_mem_cons.1 hes
    obtain ⟨hr, hread⟩ := List.forall_mem_cons.1 hread
    refine ⟨?_, fun hw => absurd hw he, ih hes hread⟩
    intro hc i
    rw [hr hc i]
    exact (congrFun (pageAfter_append hes) i).symm

theorem FlashConfig.length_bytes (c : FlashConfig) : c.bytes.length = 16 := by
  simp [bytes, leBytes, C.beBytes]

theorem FlashConfig.take_configWrite (c : FlashConfig) :
    (configWriteRequest c.bytes).payload.take 16 = c.bytes := by
  have hshort : c.bytes.take configSize = c.bytes :=
    List.take_of_length_le (by rw [c.length_bytes]; decide)
  rw [configWriteRequest, hshort, ← c.length_bytes, List.take_left]

theorem FlashConfig.bytes_ofPage (page : Fin 256 → UInt8) :
    (ofPage page).bytes = (List.ofFn page).take 16 := by
  have hlength : ((List.ofFn page).take 16).length = 16 := by
    rw [List.length_take, List.length_ofFn]
    rfl
  rw [ofPage, bytes_ofBytes hlength.ge, List.take_take, Nat.min_self]

theorem FlashConfig.config_stored {c : FlashConfig} (hm : c.magicNumber = calibrationMagic)
    (h₀ : 0 ≤ c.calibrationVctcxo.toInt) (h : c.calibrationVctcxo.toInt < 2 ^ 16) :
    c.stored.config = c := by
  have hvctcxo : c.calibrationVctcxo.toUInt32.toUInt16.toUInt32.toInt32 = c.calibrationVctcxo := by
    rw [← Int32.toInt_inj, C.toInt_toUInt16, Int.emod_eq_of_lt h₀ h]
  rw [stored, if_pos hm, Stored.config, hvctcxo, ← hm]

theorem FlashConfig.stored_alike_iff {c : FlashConfig} (hm : c.magicNumber = calibrationMagic)
    (s : Stored) :
    s.vctcxo = c.stored.vctcxo ∧ s.frontendOptions = c.stored.frontendOptions ↔
      s.config.calibrationVctcxo.toInt = c.calibrationVctcxo.toInt % 2 ^ 16 ∧
        s.config.frontendOptions = c.frontendOptions := by
  rw [stored, if_pos hm, ← C.toInt_toUInt16, Int32.toInt_inj]
  refine and_congr_left fun _ => ⟨?_, ?_⟩
  · intro heq
    rw [Stored.config, heq]
  · intro heq
    have hlow := congrArg (fun x : Int32 => x.toUInt32.toUInt16) heq
    exact (UInt16.toUInt16_toUInt32 _).symm.trans (hlow.trans (UInt16.toUInt16_toUInt32 _))

theorem FlashConfig.ofPage_configWrite (c : FlashConfig) :
    ofPage (fun i => (configWriteRequest c.bytes).payload.getD i 0) = c := by
  have hlength := length_configWriteRequest c.bytes
  have hpage : (List.ofFn fun i : Fin 256 => (configWriteRequest c.bytes).payload.getD i 0) =
      (configWriteRequest c.bytes).payload := by
    refine List.ext_getElem ?_ ?_
    · rw [List.length_ofFn, hlength]
      rfl
    · intro i hi hi'
      rw [List.getElem_ofFn, List.getD_eq_getElem?_getD, List.getElem?_eq_getElem hi',
        Option.getD_some]
  rw [ofPage, hpage, c.take_configWrite, ← List.append_nil c.bytes]
  exact ofBytes_bytes c []

theorem Reply.stored_of_complete {stack page : Fin 256 → UInt8} {r : Reply}
    (hr : r.result 256 = 256) (hpage : ∀ i : Fin 256, r.data i = page i) :
    r.stored stack = (FlashConfig.ofPage page).stored := by
  have hs : ¬ C.ltSizeT (r.result 256) 256 := (not_ltSizeT_result_iff (by norm_num)).2 (.inr hr)
  rw [stored, if_neg hs, fill_of_complete hr, funext hpage]

end Page

end AirspyHF
