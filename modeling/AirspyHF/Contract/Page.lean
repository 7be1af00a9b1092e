import AirspyHF.Contract.Tables
import AirspyHF.Device.Tuning

/-!
# The stored settings survive

What `airspyhf_flash_configuration` writes is found again by a later `airspyhf_open`, whose device
then has the same settings and has told them to the receiver; and what was found is written back
unchanged.  This needs a complete reply to the request for the page.  Without one the driver assumes
settings of its own, and when the calibration is changed and stored these take the place of the
stored ones.
-/

namespace AirspyHF

/-- A call that changes a stored setting. -/
inductive StoredCall where
  | calibration (ppb : Int32)
  | vctcxo (vc : UInt16)
  | frontendOptions (flags : UInt32)
  deriving DecidableEq

/-- What the call does to the record of the settings. -/
def StoredCall.apply : StoredCall → FlashConfig → FlashConfig
  | .calibration ppb, c => { c with calibrationPpb := ppb }
  | .vctcxo vc, c => { c with calibrationVctcxo := vc.toUInt32.toInt32 }
  | .frontendOptions flags, c => { c with frontendOptions := flags }

/-- Three settings, each made at least once and in any order, are the ones that remain. -/
theorem StoredCall.foldl_apply {ppb : Int32} {vc : UInt16} {flags : UInt32}
    {calls : List StoredCall} (hcalls : ∀ c ∈ calls, c = .calibration ppb ∨ c = .vctcxo vc ∨
      c = .frontendOptions flags) (c : FlashConfig) :
    calls.foldl (fun c call => call.apply c) c = ⟨c.magicNumber,
      if .calibration ppb ∈ calls then ppb else c.calibrationPpb,
      if .vctcxo vc ∈ calls then vc.toUInt32.toInt32 else c.calibrationVctcxo,
      if .frontendOptions flags ∈ calls then flags else c.frontendOptions⟩ := by
  induction calls generalizing c with
  | nil => rfl
  | cons call calls ih =>
    obtain ⟨hcall, hcalls⟩ := List.forall_mem_cons.1 hcalls
    rw [List.foldl_cons, ih hcalls]
    rcases hcall with rfl | rfl | rfl
    · simp [apply]
    · simp [apply]
    · simp [apply]

namespace Target

variable (T : Target)

/-- Execute the call. -/
def execStored : StoredCall → World → Status × World
  | .calibration ppb => T.setCalibration ppb
  | .vctcxo vc => setVctcxoCalibration vc
  | .frontendOptions flags => setFrontendOptions flags

/-- Execute several calls. -/
def runStored (calls : List StoredCall) (w : World) : World :=
  calls.foldl (fun w c => (T.execStored c w).2) w

theorem setCalibration_eq (ppb : Int32) (w : World) : ∃ status es d,
    T.setCalibration ppb w = (status, w.advance es d) ∧
    d.flashConfig = { w.device.flashConfig with calibrationPpb := ppb } ∧
    d.stream = w.device.stream ∧
    ∀ e ∈ es, e.request.command = .setFreq ∨ e.request.command = .getFreqDelta := by
  obtain ⟨status, es, d, heq, hrun⟩ := T.setFreqDouble_run w.device.freqHz
    (w.update fun d => { d with calibrationPpb := ppb })
  obtain ⟨hvctcxo, hoptions⟩ := hrun.stored
  refine ⟨status, es, d, heq, ?_, hrun.frame.stream, hrun.commands⟩
  rw [Device.flashConfig, hrun.frame.calibrationPpb, hvctcxo, hoptions]
  rfl

/-- A call changes its setting, and leaves the page alone. -/
theorem execStored_eq (c : StoredCall) (w : World) : ∃ status es d,
    T.execStored c w = (status, w.advance es d) ∧
    d.flashConfig = c.apply w.device.flashConfig ∧ d.stream = w.device.stream ∧
    ∀ e ∈ es, e.request.command ≠ .configWrite ∧ e.request.command ≠ .configRead := by
  cases c with
  | calibration ppb =>
    obtain ⟨status, es, d, heq, hconfig, hstream, hes⟩ := T.setCalibration_eq ppb w
    refine ⟨status, es, d, heq, hconfig, hstream, ?_⟩
    intro e he
    rcases hes e he with hc | hc <;> rw [hc] <;> decide
  | vctcxo vc =>
    refine ⟨_, [_], _, rfl, rfl, rfl, ?_⟩
    intro e he
    obtain rfl := List.mem_singleton.1 he
    exact (by decide : VendorRequest.setVctcxoCalibration ≠ .configWrite ∧
      VendorRequest.setVctcxoCalibration ≠ .configRead)
  | frontendOptions flags =>
    refine ⟨_, [_], _, rfl, rfl, rfl, ?_⟩
    intro e he
    obtain rfl := List.mem_singleton.1 he
    exact (by decide : VendorRequest.setFrontendOptions ≠ .configWrite ∧
      VendorRequest.setFrontendOptions ≠ .configRead)

theorem runStored_eq (calls : List StoredCall) (w : World) : ∃ es d,
    T.runStored calls w = w.advance es d ∧
    d.flashConfig = calls.foldl (fun c call => call.apply c) w.device.flashConfig ∧
    d.stream = w.device.stream ∧
    ∀ e ∈ es, e.request.command ≠ .configWrite ∧ e.request.command ≠ .configRead := by
  induction calls generalizing w with
  | nil => exact ⟨[], w.device, rfl, rfl, rfl, List.forall_mem_nil _⟩
  | cons c calls ih =>
    obtain ⟨status, es, d, heq, hconfig, hstream, hes⟩ := T.execStored_eq c w
    obtain ⟨es', d', heq', hconfig', hstream', hes'⟩ := ih (w.advance es d)
    rw [World.advance_device] at hconfig' hstream'
    refine ⟨es' ++ es, d', ?_, ?_, hstream'.trans hstream, List.forall_mem_append.2 ⟨hes', hes⟩⟩
    · rw [← World.advance_advance, ← heq', runStored, List.foldl_cons, heq]
      rfl
    · rw [List.foldl_cons, ← hconfig, hconfig']

end Target

/-! ### What is stored is found again -/

/-- Every request for the page from `log` to `log'` is answered in full. -/
def ReadInFull (log log' : List Exchange) : Prop :=
  ∀ es, log' = es ++ log → ∀ e ∈ es, e.request.command = .configRead → e.Complete

section RoundTrip

variable {h : Host} {i : ℕ} {p p₁ p₂ p' : Process} {o : Opened} {image : Fin 256 → UInt8}
  {lands : ℕ → Bool}

theorem Host.Opening.complete (ho : h.Opening i p p₁ p₂ o p') (hread : ReadInFull p.log p'.log) :
    (h.replyAt p (tableRequests (h.replyAt p))).result 256 = 256 := by
  obtain ⟨es, es₀, hlog, -⟩ := ho.log_eq
  rw [← List.cons_append, ← List.append_assoc] at hlog
  exact hread _ hlog _ (List.mem_append_right _ List.mem_cons_self) rfl

theorem Host.Opening.keepsPage (ho : h.Opening i p p₁ p₂ o p') (hk : KeepsPage image lands p.log)
    (hdata : ∀ k : Fin 256,
      (h.replyAt p (tableRequests (h.replyAt p))).data k = pageAfter image lands p.log k) :
    KeepsPage image lands p'.log := by
  obtain ⟨es, hlog, hwrite, hpage⟩ := ho.page_requests
  rw [hlog]
  refine hk.append hwrite ?_
  intro e he hc k
  rw [hpage e he hc]
  exact hdata k

theorem Host.Opening.readInFull (ho : h.Opening i p p₁ p₂ o p') (hc : (Exchange.mk
    configReadRequest (h.replyAt p (tableRequests (h.replyAt p)))).Complete) :
    ReadInFull p.log p'.log := by
  obtain ⟨es, hlog, -, hpage⟩ := ho.page_requests
  intro es' hes' e he hread
  obtain rfl := List.append_cancel_right (hes'.symm.trans hlog)
  rw [hpage e he hread]
  exact hc

theorem Host.Opening.stored_of_page (ho : h.Opening i p p₁ p₂ o p')
    (hkeeps : KeepsPage image lands p'.log) (hread : ReadInFull p.log p'.log) :
    o.device.stored = (FlashConfig.ofPage (pageAfter image lands p.log)).stored :=
  ho.stored.1.trans (Reply.stored_of_complete (ho.complete hread) (ho.data_eq hkeeps))

theorem Host.Opening.sends (ho : h.Opening i p p₁ p₂ o p')
    (hkeeps : KeepsPage image lands p'.log) (hread : ReadInFull p.log p'.log)
    (hm : (FlashConfig.ofPage (pageAfter image lands p.log)).magicNumber = calibrationMagic) :
    ∃ e₁ e₂ log, p'.log = e₂ :: e₁ :: log ∧
      e₁.request = setVctcxoRequest o.device.stored.vctcxo ∧
      e₂.request = setFrontendOptionsRequest o.device.stored.frontendOptions := by
  have hc := ho.complete hread
  have hdata := funext (ho.data_eq hkeeps)
  rw [← ho.reply_eq] at hc hdata
  have hs : ¬ C.ltSizeT ((h.bus p₂.log.length).result 256) 256 :=
    (Reply.not_ltSizeT_result_iff (by norm_num)).2 (.inr hc)
  rw [← hdata, ← Reply.fill_of_complete hc h.stack] at hm
  obtain ⟨e₁, e₂, hlog, h₁, h₂⟩ := loadConfig_sends (w := h.booted o.rates p₂) hs hm
  rw [ho.stored.1, ← ho.reply_eq]
  exact ⟨e₁, e₂, _, ho.log.trans hlog, h₁, h₂⟩

/-- What the page holds once a device that does not stream has stored its settings in full and was
closed. -/
theorem ofPage_closed {w : World} (hs : w.device.stream.isStreaming = false)
    (hwrite : (w.exchange (configWriteRequest w.device.flashConfig.bytes)).Complete)
    {others : Stream → Stream} {bus : ℕ → Reply} {held : Multiset Resource} {result : Status}
    (hclose : o.close bus others ⟨held, (flashConfiguration w).2.log⟩ = some (result, p))
    (hkeeps : KeepsPage image lands p.log) :
    FlashConfig.ofPage (pageAfter image lands p.log) = w.device.flashConfig := by
  -- the page is written, and then the receiver is silenced
  obtain ⟨e, hlog, he⟩ := Opened.close_log hclose
  rw [flashConfiguration_eq hs] at hlog
  rw [hlog] at hkeeps ⊢
  have hlands : lands w.log.length = true := hkeeps.2.2.2.1 rfl hwrite
  have hoff : e.request.command ≠ .configWrite := by
    rw [he]
    exact (by decide : VendorRequest.receiverMode ≠ .configWrite)
  rw [pageAfter, if_neg fun hc => hoff hc.1, World.issue_log, pageAfter, if_pos ⟨rfl, hlands⟩]
  exact FlashConfig.ofPage_configWrite _

/-- **Stored settings come back.** A device is opened, its request for the page is answered in full,
and the receiver has kept its page.

* If the device was closed before, after its three settings were made through the calls and stored in
  full, the getters return these settings, and the last requests told them to the receiver.
* If the page holds a record whose oscillator calibration fits in 16 bits, then storing the settings
  at once writes the record back.
* If the page holds no record, all three settings are 0. -/
theorem settings_round_trip {serialNumber : UInt64} {fd : ℤ}
    (hopen : h.openInit serialNumber fd p = some (.success, some o, p'))
    (hkeeps : KeepsPage image lands p'.log) (hread : ReadInFull p.log p'.log) :
    (∀ (T : Target) (w : World) (calls : List StoredCall) (ppb : Int32) (vc : UInt16)
      (flags : UInt32) (closed : Opened) (others : Stream → Stream) (held : Multiset Resource)
      (result : Status),
      w.device.stream.isStreaming = false →
      (∀ c, c ∈ calls ↔ c = .calibration ppb ∨ c = .vctcxo vc ∨ c = .frontendOptions flags) →
      ((T.runStored calls w).exchange
        (configWriteRequest (T.runStored calls w).device.flashConfig.bytes)).Complete →
      { closed with device := (T.runStored calls w).device }.close w.bus others
        ⟨held, (flashConfiguration (T.runStored calls w)).2.log⟩ = some (result, p) →
      o.device.getCalibration = ppb ∧ o.device.getVctcxoCalibration = vc ∧
        o.device.getFrontendOptions = flags ∧
      ∃ e₁ e₂ log, p'.log = e₂ :: e₁ :: log ∧
        e₁.request.command = .setVctcxoCalibration ∧ e₁.request.value = vc ∧
        e₂.request.command = .setFrontendOptions ∧
        e₂.request.value.toNat + 2 ^ 16 * e₂.request.index.toNat = flags.toNat) ∧
    ((FlashConfig.ofPage (pageAfter image lands p.log)).magicNumber = calibrationMagic →
      0 ≤ (FlashConfig.ofPage (pageAfter image lands p.log)).calibrationVctcxo.toInt →
      (FlashConfig.ofPage (pageAfter image lands p.log)).calibrationVctcxo.toInt < 2 ^ 16 →
      ∃ e, (flashConfiguration ⟨o.device, p'.log, h.bus⟩).2.log = e :: p'.log ∧
        e.request.command = .configWrite ∧
        e.request.payload.take 16 = (List.ofFn (pageAfter image lands p.log)).take 16) ∧
    ((FlashConfig.ofPage (pageAfter image lands p.log)).magicNumber ≠ calibrationMagic →
      o.device.getCalibration = 0 ∧ o.device.getVctcxoCalibration = 0 ∧
        o.device.getFrontendOptions = 0) := by
  cases Host.openInit_run hopen with
  | opened hf hg ho =>
  have hstored := ho.stored_of_page hkeeps hread
  refine ⟨?_, ?_, ?_⟩
  · intro T w calls ppb vc flags closed others held result hs hcalls hwrite hclose
    obtain ⟨es, d, heq, hconfig, hstream, -⟩ := T.runStored_eq calls w
    rw [StoredCall.foldl_apply (fun c hc => (hcalls c).1 hc), if_pos ((hcalls _).2 (.inl rfl)),
      if_pos ((hcalls _).2 (.inr (.inl rfl))), if_pos ((hcalls _).2 (.inr (.inr rfl)))] at hconfig
    rw [heq] at hwrite hclose
    rw [← hstream] at hs
    have hpage : FlashConfig.ofPage (pageAfter image lands p.log) =
        (Stored.mk ppb vc flags).config :=
      (ofPage_closed hs hwrite hclose (ho.keeps hkeeps)).trans hconfig
    rw [hpage, Stored.stored_config] at hstored
    obtain ⟨e₁, e₂, log, hlog, h₁, h₂⟩ := ho.sends hkeeps hread (by rw [hpage]; rfl)
    rw [hstored] at h₁ h₂
    refine ⟨congrArg Stored.ppb hstored, congrArg Stored.vctcxo hstored,
      congrArg Stored.frontendOptions hstored, e₁, e₂, log, hlog, ?_⟩
    rw [h₁, h₂]
    exact ⟨rfl, rfl, rfl, setFrontendOptionsRequest_flags flags⟩
  · intro hm h₀ hfits
    have hs : o.device.stream.isStreaming = false := by
      rw [ho.stored.2.2]
      rfl
    rw [flashConfiguration_eq hs]
    refine ⟨_, rfl, rfl, ?_⟩
    rw [World.exchange_request, FlashConfig.take_configWrite, ho.stored.2.1, hstored,
      FlashConfig.config_stored hm h₀ hfits, FlashConfig.bytes_ofPage]
  · intro hm
    rw [FlashConfig.stored, if_neg hm] at hstored
    exact ⟨congrArg Stored.ppb hstored, congrArg Stored.vctcxo hstored,
      congrArg Stored.frontendOptions hstored⟩

end RoundTrip

/-! ### Recalibration -/

/-- The run of a recalibration: a device is opened, given a new calibration, and its settings are
stored.  The result is what has been asked by then. -/
def Target.recalibrate (T : Target) (h : Host) (serialNumber : UInt64) (fd : ℤ) (ppb : Int32)
    (p : Process) : Option (List Exchange) :=
  (h.openInit serialNumber fd p).map fun (_, o, p) =>
    match o with
    | some o => (flashConfiguration (T.setCalibration ppb ⟨o.device, p.log, h.bus⟩).2).2.log
    | none => p.log

/-- A recalibration from `page` to `page'` kept the other settings. -/
def SettingsKept (page page' : Fin 256 → UInt8) (ppb : Int32) : Prop :=
  page' = page ∨
    (FlashConfig.ofPage page').calibrationPpb = ppb ∧
    (FlashConfig.ofPage page').calibrationVctcxo.toInt =
      (FlashConfig.ofPage page).calibrationVctcxo.toInt % 2 ^ 16 ∧
    (FlashConfig.ofPage page').frontendOptions = (FlashConfig.ofPage page).frontendOptions

/-- The records give the same settings, the calibration aside. -/
def FlashConfig.Alike (c c' : FlashConfig) : Prop :=
  c.stored.vctcxo = c'.stored.vctcxo ∧ c.stored.frontendOptions = c'.stored.frontendOptions

/-- The reply to the request for the page lets the driver find the settings: it is complete, or it
is short and both settings are 0 anyway, or the transfer fails and what the buffer holds then gives
the same settings. -/
def SettingsFound (stack page : Fin 256 → UInt8) (r : Reply) : Prop :=
  r.result 256 = 256 ∨
  (¬ r.Failed ∧ (FlashConfig.ofPage page).stored.vctcxo = 0 ∧
    (FlashConfig.ofPage page).stored.frontendOptions = 0) ∨
  r.Failed ∧ (FlashConfig.ofPage (r.fill 256 stack)).Alike (.ofPage page)

theorem Target.recalibrate_of_opened (T : Target) (ppb : Int32) {h : Host} {serialNumber : UInt64}
    {fd : ℤ} {p p' : Process} {status : Status} {o : Opened}
    (hopen : h.openInit serialNumber fd p = some (status, some o, p')) :
    T.recalibrate h serialNumber fd ppb p = some
      (flashConfiguration (T.setCalibration ppb ⟨o.device, p'.log, h.bus⟩).2).2.log := by
  rw [recalibrate, hopen]
  rfl

section Recalibration

variable {T : Target} {h : Host} {i : ℕ} {p p₁ p₂ p' : Process} {o : Opened}
  {image page stack : Fin 256 → UInt8} {lands : ℕ → Bool} {ppb : Int32} {r : Reply}

/-- The settings are found exactly if the driver takes the right ones. -/
theorem settingsFound_iff (hdata : r.result 256 = 256 → ∀ k : Fin 256, r.data k = page k) :
    SettingsFound stack page r ↔
      (r.stored stack).vctcxo = (FlashConfig.ofPage page).stored.vctcxo ∧
        (r.stored stack).frontendOptions = (FlashConfig.ofPage page).stored.frontendOptions := by
  by_cases hc : r.result 256 = 256
  · rw [Reply.stored_of_complete hc (hdata hc)]
    exact iff_of_true (.inl hc) ⟨rfl, rfl⟩
  by_cases hf : r.Failed
  · have hs : ¬ C.ltSizeT (r.result 256) 256 :=
      (Reply.not_ltSizeT_result_iff (by norm_num)).2 (.inl hf)
    rw [SettingsFound, Reply.stored, if_neg hs]
    simp only [hc, hf, not_true_eq_false, false_and, true_and, false_or]
    exact Iff.rfl
  · have hs : C.ltSizeT (r.result 256) 256 := by
      by_contra hs
      exact ((Reply.not_ltSizeT_result_iff (by norm_num)).1 hs).elim hf hc
    rw [SettingsFound, Reply.stored, if_pos hs]
    simp only [hc, hf, not_false_eq_true, true_and, false_and, false_or, or_false]
    exact and_congr eq_comm eq_comm

theorem recalibrated_log (T : Target) (ppb : Int32) (ho : h.Opening i p p₁ p₂ o p') : ∃ e es,
    (flashConfiguration (T.setCalibration ppb ⟨o.device, p'.log, h.bus⟩).2).2.log =
      e :: (es ++ p'.log) ∧
    e.request = configWriteRequest (FlashConfig.bytes { o.device.stored.config with
      calibrationPpb := ppb }) ∧
    ∀ e ∈ es, e.request.command = .setFreq ∨ e.request.command = .getFreqDelta := by
  obtain ⟨status, es, d, heq, hconfig, hstream, hes⟩ :=
    T.setCalibration_eq ppb ⟨o.device, p'.log, h.bus⟩
  have hs : d.stream.isStreaming = false := by
    rw [hstream, ho.stored.2.2]
    rfl
  rw [heq, flashConfiguration_eq hs]
  refine ⟨_, es, rfl, ?_, hes⟩
  rw [World.exchange_request, World.advance_device, hconfig, ho.stored.2.1]

theorem not_configWrite_of_tuning {es : List Exchange}
    (hes : ∀ e ∈ es, e.request.command = .setFreq ∨ e.request.command = .getFreqDelta) :
    ∀ e ∈ es, e.request.command ≠ .configWrite := by
  intro e he
  rcases hes e he with hc | hc <;> rw [hc] <;> decide

/-- The other settings survive exactly if the write does not reach the page, or the settings were
found when the device was opened. -/
theorem Host.Opening.settingsKept_iff (ho : h.Opening i p p₁ p₂ o p') {log : List Exchange}
    (hlog : (flashConfiguration (T.setCalibration ppb ⟨o.device, p'.log, h.bus⟩).2).2.log = log)
    (hkeeps : KeepsPage image lands log)
    (hm : (FlashConfig.ofPage (pageAfter image lands p.log)).magicNumber = calibrationMagic) :
    SettingsKept (pageAfter image lands p.log) (pageAfter image lands log) ppb ↔
      (lands (log.length - 1) = true → SettingsFound h.stack (pageAfter image lands p.log)
        (h.replyAt p (tableRequests (h.replyAt p)))) := by
  obtain ⟨e, es, heq, he, hes⟩ := recalibrated_log T ppb ho
  obtain rfl := heq.symm.trans hlog
  have hrest : pageAfter image lands (es ++ p'.log) = pageAfter image lands p.log := by
    rw [pageAfter_append (not_configWrite_of_tuning hes), ho.pageAfter_eq]
  have hdata := ho.data_eq hkeeps.2.2.of_append
  rw [settingsFound_iff fun _ => hdata, ← ho.stored.1, List.length_cons, Nat.add_sub_cancel]
  by_cases hl : lands (es ++ p'.log).length = true
  case neg =>
    rw [pageAfter, if_neg fun hw => hl hw.2, hrest]
    exact iff_of_true (.inl rfl) fun hl' => absurd hl' hl
  have hwritten : FlashConfig.ofPage (pageAfter image lands (e :: (es ++ p'.log))) =
      { o.device.stored.config with calibrationPpb := ppb } := by
    rw [pageAfter, if_pos ⟨by rw [he]; rfl, hl⟩, he, FlashConfig.ofPage_configWrite]
  rw [SettingsKept, hwritten, FlashConfig.stored_alike_iff hm, forall_prop_of_true hl]
  constructor
  · rintro (hsame | ⟨-, hvctcxo, hoptions⟩)
    · -- the write changed nothing, so the settings were those of the record
      rw [hsame] at hwritten
      rw [← FlashConfig.stored_alike_iff hm, hwritten]
      have hsettings := Stored.stored_config
        ⟨ppb, o.device.stored.vctcxo, o.device.stored.frontendOptions⟩
      exact ⟨(congrArg Stored.vctcxo hsettings).symm,
        (congrArg Stored.frontendOptions hsettings).symm⟩
    · exact ⟨hvctcxo, hoptions⟩
  · intro hfound
    exact .inr ⟨rfl, hfound⟩

/-- **When a recalibration keeps the other settings**: in every run that returns on a receiver whose
page holds a record, they survive exactly if no device was opened, the write does not reach the
page, or the settings were found when the device was opened. -/
theorem recalibrate_keeps_iff {serialNumber : UInt64} {fd : ℤ} {log : List Exchange}
    (hr : T.recalibrate h serialNumber fd ppb p = some log) (hkeeps : KeepsPage image lands log)
    (hm : (FlashConfig.ofPage (pageAfter image lands p.log)).magicNumber = calibrationMagic) :
    SettingsKept (pageAfter image lands p.log) (pageAfter image lands log) ppb ↔
      (h.Reaches serialNumber fd → (∀ r ∈ checkedBlocks, h.grants r) →
        lands (log.length - 1) = true → SettingsFound h.stack (pageAfter image lands p.log)
          (h.replyAt p (tableRequests (h.replyAt p)))) := by
  obtain ⟨⟨status, o, p'⟩, hopen, hlog⟩ := Option.map_eq_some_iff.1 hr
  cases Host.openInit_run hopen with
  | unfound hf hs =>
    obtain rfl : p.log = log := hlog
    refine iff_of_true (.inl rfl) ?_
    intro hreach
    obtain ⟨i, hi⟩ := Host.exists_finds_iff.2 hreach
    exact absurd hi (hf i)
  | refused hf hg hes =>
    obtain ⟨es, rfl, hload⟩ := hes
    obtain rfl : es ++ p.log = log := hlog
    have hwrite : ∀ e ∈ es, e.request.command ≠ .configWrite := by
      intro e he
      rcases hload e he with hc | hc | hc <;> rw [hc] <;> decide
    rw [pageAfter_append hwrite]
    exact iff_of_true (.inl rfl) fun _ hg' => absurd hg' hg
  | opened hf hg ho =>
    rw [ho.settingsKept_iff hlog hkeeps hm]
    refine ⟨fun hfound _ _ => hfound, fun hfound => hfound ?_ hg⟩
    exact Host.exists_finds_iff.1 ⟨_, hf⟩

/-- From the start of the log, the page is kept through a recalibration if the read sends it. -/
theorem keepsPage_recalibrated {held : Multiset Resource} (T : Target) (ppb : Int32)
    (ho : h.Opening i ⟨held, []⟩ p₁ p₂ o p')
    (hdata : ∀ k : Fin 256,
      (h.replyAt ⟨held, []⟩ (tableRequests (h.replyAt ⟨held, []⟩))).data k = image k) :
    KeepsPage image (fun _ => true)
      (flashConfiguration (T.setCalibration ppb ⟨o.device, p'.log, h.bus⟩).2).2.log := by
  obtain ⟨e, es, hlog, he, hes⟩ := recalibrated_log T ppb ho
  have hk : KeepsPage image (fun _ => true) p'.log := ho.keepsPage trivial hdata
  rw [hlog]
  refine ⟨fun hc => ?_, fun _ _ => rfl, hk.append (not_configWrite_of_tuning hes) ?_⟩
  · rw [he] at hc
    exact absurd hc (by decide : VendorRequest.configWrite ≠ .configRead)
  · intro e he hc
    rcases hes e he with hc' | hc' <;> exact absurd (hc.symm.trans hc') (by decide)

end Recalibration

/-! ### A receiver with a record -/

/-- The record on the page. -/
def sampleConfig : FlashConfig := ⟨calibrationMagic, 5, 7, 9⟩

/-- The page. -/
def samplePage : Fin 256 → UInt8 := fun i => (configWriteRequest sampleConfig.bytes).payload.getD i 0

/-- The replies of a receiver whose page starts with the record, from its opening on.  The requests
for tables come back empty, and the others are answered in full, except that the request for the
page may fail. -/
def pageReply (record : FlashConfig) (failure : Option ErrorCode) (n : ℕ) : Reply :=
  ⟨if n = 2 then failure else none, if n < 2 ∨ n = 2 ∧ failure.isSome then 0 else 2 ^ 16,
    fun i => (configWriteRequest record.bytes).payload.getD i 0⟩

/-- A host with one receiver that has the page. -/
def Host.withPage (failure : Option ErrorCode) : Host :=
  .obliging [.receiver []] (fun _ => true) (pageReply sampleConfig failure)

/-- The host after `start` requests, when the page of its receiver starts with the record. -/
def Host.withRecord (start : ℕ) (record : FlashConfig) : Host :=
  .obliging [.receiver []] (fun _ => true) fun n => pageReply record none (n - start)

section PageReply

variable (record : FlashConfig) (failure : Option ErrorCode)

theorem not_passes_pageReply {n : ℕ} (hn : n < 2) : ¬ (pageReply record failure n).Passes 4 := by
  have hreply : pageReply record failure n =
      ⟨none, 0, fun i => (configWriteRequest record.bytes).payload.getD i 0⟩ := by
    rw [pageReply, if_neg (by omega), if_pos (.inl hn)]
  rw [hreply]
  exact (by decide : ¬ (1 : ℤ) ≤ 0)

theorem rateRequests_pageReply : rateRequests (pageReply record failure) = 1 :=
  if_neg (not_passes_pageReply record failure (by decide))

theorem tableRequests_pageReply : tableRequests (pageReply record failure) = 2 := by
  have hatt : ¬ (afterRates (pageReply record failure) 0).Passes 4 := by
    rw [afterRates, rateRequests_pageReply]
    exact not_passes_pageReply record failure (by decide)
  rw [tableRequests, rateRequests_pageReply, attStepRequests, if_neg hatt]

theorem tablesFit_pageReply : TablesFit (pageReply record failure) := by
  refine ⟨?_, ?_⟩
  · intro hp
    exact absurd hp (not_passes_pageReply record failure (by decide))
  · intro hp
    rw [afterRates, rateRequests_pageReply] at hp
    exact absurd hp (not_passes_pageReply record failure (by decide))

theorem pageReply_full {n : ℕ} (hn : 2 ≤ n) : pageReply record none n =
    .full fun i => (configWriteRequest record.bytes).payload.getD i 0 := by
  have hfull : ¬ (n < 2 ∨ n = 2 ∧ (none : Option ErrorCode).isSome) := by
    rintro (hlt | ⟨-, hsome⟩)
    · omega
    · cases hsome
  rw [pageReply, ite_self, if_neg hfull]
  rfl

theorem replyAt_withPage :
    (Host.withPage failure).replyAt ⟨0, []⟩ = pageReply sampleConfig failure := by
  funext n
  exact congrArg (pageReply sampleConfig failure) (Nat.zero_add n)

theorem replyAt_withRecord (p : Process) :
    (Host.withRecord p.log.length record).replyAt p = pageReply record none := by
  funext n
  exact congrArg (pageReply record none) (Nat.add_sub_cancel_left _ n)

theorem withPage_tableRequests :
    tableRequests ((Host.withPage failure).replyAt ⟨0, []⟩) = 2 := by
  rw [replyAt_withPage, tableRequests_pageReply]

theorem withPage_opening : ∃ o p' p₁ p₂,
    (Host.withPage failure).openInit 0 (-1) ⟨0, []⟩ = some (.success, some o, p') ∧
      (Host.withPage failure).Opening 0 ⟨0, []⟩ p₁ p₂ o p' := by
  refine Host.opening_of_fit (fun _ _ => rfl) ⟨rfl, rfl, rfl, rfl⟩ ?_
  rw [replyAt_withPage]
  exact tablesFit_pageReply _ _

theorem withRecord_opening (p : Process) : ∃ o p' p₁ p₂,
    (Host.withRecord p.log.length record).openInit 0 (-1) p = some (.success, some o, p') ∧
      (Host.withRecord p.log.length record).Opening 0 p p₁ p₂ o p' := by
  refine Host.opening_of_fit (fun _ _ => rfl) ⟨rfl, rfl, rfl, rfl⟩ ?_
  rw [replyAt_withRecord]
  exact tablesFit_pageReply _ _

theorem withPage_data (k : Fin 256) : ((Host.withPage failure).replyAt ⟨0, []⟩
    (tableRequests ((Host.withPage failure).replyAt ⟨0, []⟩))).data k = samplePage k := by
  rw [replyAt_withPage]
  rfl

end PageReply

/-- The settings that are made. -/
def storedCalls : List StoredCall := [.calibration 6, .vctcxo 8, .frontendOptions 10]

/-- The record they make. -/
def changedConfig : FlashConfig := ⟨calibrationMagic, 6, 8, 10⟩

/-- The device after the calls, on the host with the page. -/
def storedWorld (o : Opened) (p : Process) : World :=
  Target.x8664.runStored storedCalls ⟨o.device, p.log, (Host.withPage none).bus⟩

/-- A receiver is opened, given other settings, which are stored, and closed. -/
theorem storedWorld_closed : ∃ o₁ p₁ result p,
    (Host.withPage none).openInit 0 (-1) ⟨0, []⟩ = some (.success, some o₁, p₁) ∧
    o₁.device.stream.isStreaming = false ∧
    ((storedWorld o₁ p₁).exchange
      (configWriteRequest (storedWorld o₁ p₁).device.flashConfig.bytes)).Complete ∧
    Opened.close { o₁ with device := (storedWorld o₁ p₁).device } (Host.withPage none).bus id
      ⟨p₁.held, (flashConfiguration (storedWorld o₁ p₁)).2.log⟩ = some (result, p) ∧
    KeepsPage samplePage (fun _ => true) p.log ∧
    pageAfter samplePage (fun _ => true) p.log =
      fun k : Fin 256 => (configWriteRequest changedConfig.bytes).payload.getD k 0 := by
  obtain ⟨o₁, p₁, q₁, q₂, hopen, ho⟩ := withPage_opening none
  have hs₁ : o₁.device.stream.isStreaming = false := by
    rw [ho.stored.2.2]
    rfl
  obtain ⟨es, d, heq, hconfig, hstream, hes⟩ :=
    Target.x8664.runStored_eq storedCalls ⟨o₁.device, p₁.log, (Host.withPage none).bus⟩
  have hw : storedWorld o₁ p₁ = ⟨d, es ++ p₁.log, (Host.withPage none).bus⟩ := heq
  have hs : d.stream.isStreaming = false := by
    rw [hstream]
    exact hs₁
  obtain ⟨result, p, hclose⟩ : ∃ result p,
      Opened.close { o₁ with device := (storedWorld o₁ p₁).device } (Host.withPage none).bus id
        ⟨p₁.held, (flashConfiguration (storedWorld o₁ p₁)).2.log⟩ = some (result, p) :=
    ⟨_, _, Opened.close_eq ho.held⟩
  -- the log of the session: its opening, the calls, the write, and the last request of the stop
  obtain ⟨e, hlog, he⟩ := Opened.close_log hclose
  rw [hw, flashConfiguration_eq hs, World.issue_log] at hlog
  refine ⟨o₁, p₁, result, p, hopen, hs₁, ?_, hclose, ?_, ?_⟩
  · rw [hw]
    have hlength : 2 ≤ (es ++ p₁.log).length := by
      have hlength₁ := ho.tableRequests_le
      rw [withPage_tableRequests] at hlength₁
      rw [List.length_append]
      omega
    have hreply : (Host.withPage none).bus (es ++ p₁.log).length = _ :=
      pageReply_full sampleConfig hlength
    rw [World.exchange]
    dsimp only
    rw [hreply]
    exact Exchange.complete_full _ _
  · have hk₁ : KeepsPage samplePage (fun _ => true) p₁.log :=
      ho.keepsPage trivial (withPage_data none)
    have hk : KeepsPage samplePage (fun _ => true) (es ++ p₁.log) :=
      hk₁.append (fun e he => (hes e he).1) fun e he hc => absurd hc (hes e he).2
    rw [hlog]
    refine ⟨?_, fun _ _ => rfl, ?_, fun _ _ => rfl, hk⟩
    · intro hc
      rw [he] at hc
      exact absurd hc (by decide : VendorRequest.receiverMode ≠ .configRead)
    · exact fun hc => absurd hc (by decide : VendorRequest.configWrite ≠ .configRead)
  · have hoff : e.request.command ≠ .configWrite := by
      rw [he]
      exact (by decide : VendorRequest.receiverMode ≠ .configWrite)
    rw [hlog, pageAfter, if_neg fun hc => hoff hc.1, pageAfter, if_pos ⟨rfl, rfl⟩,
      World.exchange_request, hconfig]
    rfl

/-- When the receiver is opened again it has these settings, and storing them at once writes the
same record. -/
theorem storedWorld_comes_back : ∃ o₁ p₁ result p o p',
    (Host.withPage none).openInit 0 (-1) ⟨0, []⟩ = some (.success, some o₁, p₁) ∧
    Opened.close { o₁ with device := (storedWorld o₁ p₁).device } (Host.withPage none).bus id
      ⟨p₁.held, (flashConfiguration (storedWorld o₁ p₁)).2.log⟩ = some (result, p) ∧
    (Host.withRecord p.log.length changedConfig).openInit 0 (-1) p = some (.success, some o, p') ∧
    (o.device.getCalibration = 6 ∧ o.device.getVctcxoCalibration = 8 ∧
      o.device.getFrontendOptions = 10 ∧ ∃ e₁ e₂ log, p'.log = e₂ :: e₁ :: log ∧
        e₁.request.command = .setVctcxoCalibration ∧ e₁.request.value = 8 ∧
        e₂.request.command = .setFrontendOptions ∧
        e₂.request.value.toNat + 2 ^ 16 * e₂.request.index.toNat = (10 : UInt32).toNat) ∧
    ∃ e, (flashConfiguration ⟨o.device, p'.log,
        (Host.withRecord p.log.length changedConfig).bus⟩).2.log = e :: p'.log ∧
      e.request.command = .configWrite ∧
      e.request.payload.take 16 =
        (List.ofFn (pageAfter samplePage (fun _ => true) p.log)).take 16 := by
  obtain ⟨o₁, p₁, result, p, hopen₁, hs, hwrite, hclose, hk, hpage⟩ := storedWorld_closed
  obtain ⟨o, p', q₁, q₂, hopen, ho⟩ := withRecord_opening changedConfig p
  have hrequests : tableRequests
      ((Host.withRecord p.log.length changedConfig).replyAt p) = 2 := by
    rw [replyAt_withRecord, tableRequests_pageReply]
  have hkeeps : KeepsPage samplePage (fun _ => true) p'.log := by
    refine ho.keepsPage hk ?_
    intro k
    rw [hpage, replyAt_withRecord]
    rfl
  have hread : ReadInFull p.log p'.log := by
    refine ho.readInFull ?_
    rw [hrequests, replyAt_withRecord, pageReply_full _ le_rfl]
    exact Exchange.complete_full _ _
  have hconfig : FlashConfig.ofPage (pageAfter samplePage (fun _ => true) p.log) =
      changedConfig := by
    rw [hpage]
    exact FlashConfig.ofPage_configWrite changedConfig
  have hround := settings_round_trip hopen hkeeps hread
  refine ⟨o₁, p₁, result, p, o, p', hopen₁, hclose, hopen, ?_, ?_⟩
  · exact hround.1 .x8664 ⟨o₁.device, p₁.log, (Host.withPage none).bus⟩ storedCalls 6 8 10 o₁ id
      p₁.held result hs (by simp [storedCalls]) hwrite hclose
  · rw [hconfig] at hround
    exact hround.2.1 rfl (by decide) (by decide)

/-- The page was read, and the recalibration keeps the other settings. -/
theorem withPage_kept : ∃ log,
    Target.x8664.recalibrate (Host.withPage none) 0 (-1) 3 ⟨0, []⟩ = some log ∧
      SettingsKept samplePage (pageAfter samplePage (fun _ => true) log) 3 := by
  obtain ⟨o, p', p₁, p₂, hopen, ho⟩ := withPage_opening none
  have hr := Target.x8664.recalibrate_of_opened 3 hopen
  refine ⟨_, hr, ?_⟩
  refine (recalibrate_keeps_iff hr (keepsPage_recalibrated _ 3 ho (withPage_data none)) ?_).2 ?_
  · exact congrArg FlashConfig.magicNumber (FlashConfig.ofPage_configWrite sampleConfig)
  · intro _ _ _
    rw [withPage_tableRequests]
    exact .inl rfl

/-- The request for the page fails, and the recalibration overwrites the other settings. -/
theorem withPage_lost : ∃ log,
    Target.x8664.recalibrate (Host.withPage (some ⟨-7, by decide, by decide⟩)) 0 (-1) 3 ⟨0, []⟩ =
      some log ∧
    KeepsPage samplePage (fun _ => true) log ∧
    (FlashConfig.ofPage samplePage).magicNumber = calibrationMagic ∧
    ¬ SettingsKept samplePage (pageAfter samplePage (fun _ => true) log) 3 := by
  obtain ⟨o, p', p₁, p₂, hopen, ho⟩ := withPage_opening (some ⟨-7, by decide, by decide⟩)
  have hkeeps := keepsPage_recalibrated .x8664 3 ho (withPage_data _)
  have hconfig : FlashConfig.ofPage samplePage = sampleConfig :=
    FlashConfig.ofPage_configWrite sampleConfig
  have hm := congrArg FlashConfig.magicNumber hconfig
  refine ⟨_, Target.x8664.recalibrate_of_opened 3 hopen, hkeeps, hm, ?_⟩
  intro hkept
  have hfound := (ho.settingsKept_iff rfl hkeeps hm).1 hkept rfl
  rw [withPage_tableRequests] at hfound
  rcases hfound with hc | ⟨hf, -⟩ | ⟨-, hvctcxo, -⟩
  · exact absurd hc (by decide)
  · exact hf rfl
  · exact absurd hvctcxo (by decide +kernel)

end AirspyHF
