import AirspyHF.C.File
import AirspyHF.Device.Attenuator
import AirspyHF.Device.Calls
import AirspyHF.Tools.Rx
import AirspyHF.Tools.Wav

/-!
# Recordings

`airspyhf_rx -w` sets the receiver up, writes an empty header, streams, and fills the header in
when the stream has ended.

* `record_bytes` : the file grows by what the callback writes of every block.
* `Recorded.bytesWritten_eq` : that is all blocks, or as many samples as were requested.
* `setUp_currentSamplerate` : the receiver streams at the rate that was chosen.
* `recordWav_not_describes` : the header of a recording never describes the samples that follow;
  what is wrong in all of them is the number of bytes a second.
-/

namespace AirspyHF

namespace Rx

/-! ### The program -/

/-- The settings of the command line. -/
structure Options where
  /-- `sample_rate_val`. -/
  sampleRateVal : UInt32 := 768000
  /-- `samples_to_xfer`, with the option `-n`. -/
  samplesToXfer : Option UInt64 := none
  /-- `freq_hz`, with the option `-f`. -/
  freqHz : Option UInt32 := none
  /-- `hf_agc`. -/
  hfAgc : Bool := true
  /-- `hf_agc_threshold`. -/
  hfAgcThreshold : Bool := false
  /-- `hf_att_val`. -/
  hfAttVal : UInt8 := 0
  /-- `hf_lna`. -/
  hfLna : Bool := false
  /-- `do_not_use_manual_commands`. -/
  doNotUseManualCommands : Bool := false

/-- The frequency, if it is one that the receiver covers. -/
def Options.frequency (o : Options) : Option UInt32 :=
  match o.freqHz with
  | some freqHz =>
    if 9000 ≤ freqHz ∧ freqHz ≤ 31000000 ∨ 60000000 ≤ freqHz ∧ freqHz ≤ 260000000 then some freqHz
    else none
  | none => some 7100000

/-- `wav_sample_per_sec`: the rate of the command line, if the receiver supports it. -/
def wavSamplePerSec (t : RateTable) (sampleRateVal : UInt32) : UInt32 :=
  if sampleRateVal ∈ t.rates.take t.count.toNat then sampleRateVal else 0

/-- A request that switches something on or off. -/
def switchRequest (command : VendorRequest) (flag : Bool) : Request :=
  ⟨command, if flag then 1 else 0, 0, [], 0⟩

/-- Switch something on or off. -/
def switch (command : VendorRequest) (flag : Bool) (w : World) : Status × World :=
  (if (w.exchange (switchRequest command flag)).result < 0 then .error else .success,
    w.issue (switchRequest command flag))

/-- `airspyhf_set_hf_agc`. -/
def setHfAgc (flag : Bool) (w : World) : Status × World := switch .setAgc flag w

/-- `airspyhf_set_hf_agc_threshold`. -/
def setHfAgcThreshold (flag : Bool) (w : World) : Status × World := switch .setAgcThreshold flag w

/-- `airspyhf_set_hf_lna`. -/
def setHfLna (flag : Bool) (w : World) : Status × World := switch .setLna flag w

/-- The request for the identity of the board: its part number and four words. -/
def partidSerialnoRequest : Request := ⟨.getSerialnoBoardid, 0, 0, [], 20⟩

/-- `airspyhf_board_partid_serialno_read`; the identity is printed only. -/
def boardPartidSerialnoRead (w : World) : Status × World :=
  (if (w.exchange partidSerialnoRequest).result < 20 then .error else .success,
    w.issue partidSerialnoRequest)

/-- The program goes on where a call succeeds. -/
def require (x : Status × World) : Option World := if x.1 = .success then some x.2 else none

/-- The calls of `main` before the file is opened. -/
def setUp (T : Target) (o : Options) (wavSamplePerSec : UInt32) (w : World) : Option World := do
  let w ← require (T.setSamplerate wavSamplePerSec w)
  let w ← require (boardPartidSerialnoRead w)
  if o.doNotUseManualCommands then some w
  else do
    let w ← require (setHfAgc o.hfAgc w)
    let w ← require
      (if o.hfAgc then setHfAgcThreshold o.hfAgcThreshold w else setHfAtt o.hfAttVal w)
    require (setHfLna o.hfLna w)

/-- A block that is delivered, with the bytes of its buffer. -/
structure Capture where
  /-- The block. -/
  block : Block
  /-- The bytes. -/
  data : List UInt8
  /-- The buffer holds the samples of the block. -/
  length_data : data.length = (block.sampleCount * 4 * 2).toUInt32.toNat
  /-- `fwrite` writes no more than it is given. -/
  fwrite_le : ∀ k, block.fwrite k ≤ k

section

variable {F : Type*} [Add F] [Sub F] [Mul F] [Div F] [OfScientific F] [IntCast F]

/-- The blocks until the callback ends the stream: what it returns and writes of each, and the file
afterwards. -/
def record (s : State F) (f : C.File) : List Capture → List (ℤ × ℕ) × C.File
  | [] => ([], f)
  | c :: captures =>
    let (call, s) := callback s c.block
    let f := f.fwrite (c.data.take call.2)
    if call.1 = 0 then
      let (calls, f) := record s f captures
      (call :: calls, f)
    else ([call], f)

/-- The end of `main`: the header is filled in and written over the first. -/
def finishWav (wavSamplePerSec : UInt32) (f : C.File) : C.File :=
  f.rewind.fwrite (waveFileHdr.finish (UInt32.ofNat f.ftell) wavSamplePerSec).bytes

/-- What happens while a recording is made. -/
structure Reception (F : Type*) where
  /-- What is measured before. -/
  meter : Meter F
  /-- `rx_callback`. -/
  callback : Pointer
  /-- `NULL`. -/
  ctx : Pointer
  /-- The outcomes of the calls in `airspyhf_start`. -/
  outcomes : StartOutcomes
  /-- The blocks that the driver has until the stream ends. -/
  captures : List Capture
  /-- What the threads of the driver do while `airspyhf_stop` waits for them. -/
  others : Stream → Stream

/-- A finished recording. -/
structure Recording where
  /-- The receiver. -/
  world : World
  /-- What the callback returned and wrote of every block. -/
  calls : List (ℤ × ℕ)
  /-- The file. -/
  file : C.File

/-- The number of bytes of samples that were written. -/
def Recording.bytesWritten (x : Recording) : ℕ := (x.calls.map Prod.snd).sum

/-- The header of the file. -/
def Recording.header (x : Recording) : WavFileHdr := .ofBytes x.file.bytes

/-- `main` with the option `-w`, from the opened receiver on; there is no recording where it fails.
The callback runs beside `airspyhf_set_freq`, which does not touch the file. -/
def recordWav (T : Target) (o : Options) (r : Reception F) (w : World) : Option Recording :=
  (start r.meter o.samplesToXfer).bind fun s => do
    let freqHz ← o.frequency
    let wavSamplePerSec := wavSamplePerSec w.device.table o.sampleRateVal
    if wavSamplePerSec = 0 then none
    else do
      let w ← setUp T o wavSamplePerSec w
      let f := C.File.create.fwrite waveFileHdr.bytes
      let w ← require (AirspyHF.start r.callback r.ctx r.outcomes w)
      let w ← require (T.setFreq freqHz w)
      let (calls, f) := record s f r.captures
      -- a failure to stop is reported only
      let w := (AirspyHF.stop r.others w).2
      some ⟨w, calls, finishWav wavSamplePerSec f⟩

/-! ### The file -/

theorem callback_written_le (s : State F) (c : Capture) :
    (callback s c.block).1.2 ≤ c.data.length := by
  have hcut := toNat_cut s.bytesToXfer (c.block.sampleCount * 4 * 2).toUInt32
  have hwrite (k : UInt32) (hk : k.toNat ≤ c.data.length) :
      (if c.block.samples then c.block.fwrite k.toNat else 0) ≤ c.data.length := by
    split
    · exact (c.fwrite_le _).trans hk
    · exact Nat.zero_le _
  unfold callback
  split
  · cases s.limitNumSamples
    · exact hwrite _ c.length_data.ge
    · exact hwrite _ (hcut.le.trans ((min_le_left _ _).trans c.length_data.ge))
  · exact Nat.zero_le _

/-- At the end the header is replaced; the data stay. -/
theorem finishWav_bytes {f : C.File} (hf : f.AtEnd) {data : List UInt8}
    (hbytes : f.bytes = waveFileHdr.bytes ++ data) (wavSamplePerSec : UInt32) :
    (finishWav wavSamplePerSec f).bytes =
      (waveFileHdr.finish (UInt32.ofNat (sizeofWavFileHdr + data.length)) wavSamplePerSec).bytes ++
        data := by
  rw [finishWav, C.File.bytes_rewind_fwrite, hf.ftell_eq, hbytes, List.length_append,
    WavFileHdr.length_bytes, WavFileHdr.length_bytes,
    List.drop_left' (WavFileHdr.length_bytes waveFileHdr)]

/-- What the calls write of the blocks. -/
def written (captures : List Capture) (calls : List (ℤ × ℕ)) : List UInt8 :=
  (List.zipWith (fun c call => c.data.take call.2) captures calls).flatten

theorem record_cons (s : State F) (f : C.File) (c : Capture) (captures : List Capture) :
    record s f (c :: captures) =
      if (callback s c.block).1.1 = 0 then
        ((callback s c.block).1 :: (record (callback s c.block).2
            (f.fwrite (c.data.take (callback s c.block).1.2)) captures).1,
          (record (callback s c.block).2
            (f.fwrite (c.data.take (callback s c.block).1.2)) captures).2)
      else ([(callback s c.block).1], f.fwrite (c.data.take (callback s c.block).1.2)) := rfl

/-- **The file** grows by what the callback writes of every block, in order. -/
theorem record_bytes {f : C.File} (hf : f.AtEnd) (s : State F) (captures : List Capture) :
    (record s f captures).2.AtEnd ∧ (record s f captures).2.bytes =
      f.bytes ++ written captures (record s f captures).1 := by
  induction captures generalizing s f with
  | nil => exact ⟨hf, (List.append_nil _).symm⟩
  | cons c captures ih =>
    have hbytes := C.File.bytes_fwrite_atEnd hf (c.data.take (callback s c.block).1.2)
    have hend := hf.fwrite (c.data.take (callback s c.block).1.2)
    rw [record_cons]
    split
    · obtain ⟨hend', hbytes'⟩ := ih hend (callback s c.block).2
      refine ⟨hend', hbytes'.trans ?_⟩
      rw [hbytes, List.append_assoc]
      rfl
    · refine ⟨hend, hbytes.trans ?_⟩
      simp [written]

theorem length_written (s : State F) (f : C.File) (captures : List Capture) :
    (written captures (record s f captures).1).length =
      ((record s f captures).1.map Prod.snd).sum := by
  induction captures generalizing s f with
  | nil => rfl
  | cons c captures ih =>
    have htake : (c.data.take (callback s c.block).1.2).length = (callback s c.block).1.2 :=
      List.length_take_of_le (callback_written_le s c)
    rw [record_cons]
    split
    · rw [written, List.zipWith_cons_cons, List.flatten_cons, List.length_append, htake,
        List.map_cons, List.sum_cons]
      exact congrArg _ (ih _ _)
    · simp [written, htake]

theorem record_left {s : State F} {q : ℕ} (hs : s.Left q) (f : C.File) {captures : List Capture}
    (hcaptures : ∀ c ∈ captures, c.block.Complete) :
    ((record s f captures).1.map Prod.snd).sum = min (8 * sizes (captures.map Capture.block)) q := by
  induction captures generalizing s q f with
  | nil => simp [record, sizes]
  | cons c captures ih =>
    obtain ⟨hc, hcaptures⟩ := List.forall_mem_cons.1 hcaptures
    obtain ⟨hcall, hleft⟩ := callback_left hs hc
    rw [record_cons, hcall, List.map_cons, sizes_cons]
    by_cases hlast : q ≤ 8 * c.block.size
    · simp only [if_pos hlast, if_neg (show (-1 : ℤ) ≠ 0 by decide), List.map_cons, List.map_nil,
        List.sum_singleton]
      omega
    · simp only [if_neg hlast, if_true, List.map_cons, List.sum_cons, ih hleft _ hcaptures]
      omega

/-- A stream without a limit is written as far as it goes. -/
theorem record_unlimited {s : State F} (hfd : s.fd = true) (hs : s.limitNumSamples = false)
    (f : C.File) {captures : List Capture} (hcaptures : ∀ c ∈ captures, c.block.Complete) :
    ((record s f captures).1.map Prod.snd).sum = 8 * sizes (captures.map Capture.block) := by
  induction captures generalizing s f with
  | nil => rfl
  | cons c captures ih =>
    obtain ⟨hc, hcaptures⟩ := List.forall_mem_cons.1 hcaptures
    have hcall : (callback s c.block).1 = (0, 8 * c.block.size) := by
      simp only [callback, hfd, hs, hc.samples, hc.fwrite, hc.toNat_bytes, if_true, ne_eq,
        not_true_eq_false, false_or, Bool.false_eq_true, false_and, if_false]
    have hnext : (callback s c.block).2.fd = true ∧
        (callback s c.block).2.limitNumSamples = false := by
      simp [callback, hfd, hs]
    rw [record_cons, hcall, List.map_cons, sizes_cons]
    simp only [if_true, List.map_cons, List.sum_cons, ih hnext.1 hnext.2 _ hcaptures]
    omega

end

/-! ### The rate -/

theorem require_eq_some_iff {x : Status × World} {w : World} :
    require x = some w ↔ x = (.success, w) := by
  obtain ⟨status, w'⟩ := x
  simp [require]

theorem wavSamplePerSec_ne_zero {t : RateTable} {sampleRateVal : UInt32}
    (h : wavSamplePerSec t sampleRateVal ≠ 0) :
    sampleRateVal ∈ t.rates.take t.count.toNat ∧
      wavSamplePerSec t sampleRateVal = sampleRateVal := by
  rw [wavSamplePerSec] at h ⊢
  split at h
  · rename_i hmem
    exact ⟨hmem, if_pos hmem⟩
  · exact absurd rfl h

/-- The receiver streams at the rate that the argument of `airspyhf_set_samplerate` stands for. -/
theorem setUp_currentSamplerate {T : Target} {o : Options} {wavSamplePerSec : UInt32}
    {w w' : World} (h : setUp T o wavSamplePerSec w = some w') :
    w.device.table.rates[w.device.table.resolve wavSamplePerSec]? =
      some w'.device.currentSamplerate := by
  simp only [setUp, Option.bind_eq_bind, Option.bind_eq_some_iff, require_eq_some_iff] at h
  obtain ⟨w₁, hrate, w₂, hidentity, h⟩ := h
  rw [Target.setSamplerate_currentSamplerate hrate]
  have hdevice : w₂.device = w₁.device := (congrArg (·.2.device) hidentity).symm
  rw [← hdevice]
  split at h
  · rw [Option.some.inj h]
  · simp only [Option.bind_eq_some_iff, require_eq_some_iff] at h
    obtain ⟨w₃, hagc, w₄, hlevel, hlna⟩ := h
    have hdevice₃ : w₃.device = w₂.device := (congrArg (·.2.device) hagc).symm
    have hdevice₄ : w₄.device = w₃.device := by
      cases hflag : o.hfAgc <;> rw [hflag] at hlevel <;>
        exact (congrArg (·.2.device) hlevel).symm
    have hdevice' : w'.device = w₄.device := (congrArg (·.2.device) hlna).symm
    rw [hdevice', hdevice₄, hdevice₃]

/-! ### The recording -/

section

variable {F : Type*} [Add F] [Sub F] [Mul F] [Div F] [OfScientific F] [IntCast F]
variable {T : Target} {o : Options} {r : Reception F} {w : World} {x : Recording}

/-- What a recording is made of. -/
structure Recorded (o : Options) (r : Reception F) (w : World) (x : Recording) (s : State F) :
    Prop where
  start : start r.meter o.samplesToXfer = some s
  supported : o.sampleRateVal ∈ w.device.table.rates.take w.device.table.count.toNat
  ne_zero : o.sampleRateVal ≠ 0
  currentSamplerate : w.device.table.rates[w.device.table.resolve o.sampleRateVal]? =
    some x.world.device.currentSamplerate
  calls : x.calls = (record s (C.File.create.fwrite waveFileHdr.bytes) r.captures).1
  file : x.file = finishWav o.sampleRateVal
    (record s (C.File.create.fwrite waveFileHdr.bytes) r.captures).2

theorem recorded (hrun : recordWav T o r w = some x) : ∃ s, Recorded o r w x s := by
  simp only [recordWav, Option.bind_eq_bind, Option.bind_eq_some_iff] at hrun
  obtain ⟨s, hs, freqHz, -, hrun⟩ := hrun
  split at hrun
  · contradiction
  · rename_i hne
    obtain ⟨hmem, hrate⟩ := wavSamplePerSec_ne_zero hne
    rw [hrate] at hrun hne
    simp only [Option.bind_eq_some_iff, require_eq_some_iff, Option.some_inj] at hrun
    obtain ⟨w₁, hsetUp, w₂, hstart, w₃, hfreq, rfl⟩ := hrun
    -- what comes after the choice of the rate keeps it
    obtain ⟨stream₂, hdevice₂⟩ := start_device r.callback r.ctx r.outcomes w₁
    obtain ⟨stream₃, hdevice₃⟩ := stop_device r.others w₃
    have hrate₃ := T.setFreq_currentSamplerate freqHz w₂
    rw [hstart] at hdevice₂
    rw [hfreq] at hrate₃
    have hrate : (stop r.others w₃).2.device.currentSamplerate = w₁.device.currentSamplerate := by
      rw [hdevice₃]
      exact hrate₃.trans (congrArg (·.currentSamplerate) hdevice₂)
    exact ⟨s, hs, hmem, hne, hrate ▸ setUp_currentSamplerate hsetUp, rfl, rfl⟩

/-- **The file** is the finished header and the bytes of samples. -/
theorem Recorded.bytes {s : State F} (h : Recorded o r w x s) : x.file.bytes =
    (waveFileHdr.finish (UInt32.ofNat (sizeofWavFileHdr + x.bytesWritten)) o.sampleRateVal).bytes ++
      written r.captures x.calls := by
  have hcreate := C.File.atEnd_create
  obtain ⟨hend, hbytes⟩ := record_bytes (hcreate.fwrite waveFileHdr.bytes) s r.captures
  have hlength := length_written s (C.File.create.fwrite waveFileHdr.bytes) r.captures
  rw [C.File.bytes_fwrite_atEnd hcreate, ← h.calls] at hbytes
  rw [← h.calls] at hlength
  rw [h.file, finishWav_bytes hend hbytes, hlength]
  rfl

theorem Recorded.header_eq {s : State F} (h : Recorded o r w x s) : x.header =
    waveFileHdr.finish (UInt32.ofNat (sizeofWavFileHdr + x.bytesWritten)) o.sampleRateVal := by
  rw [Recording.header, h.bytes, WavFileHdr.ofBytes_bytes]

theorem Recorded.data_eq {s : State F} (h : Recorded o r w x s) :
    x.file.bytes.drop sizeofWavFileHdr = written r.captures x.calls := by
  rw [h.bytes, List.drop_left' (WavFileHdr.length_bytes _)]

theorem Recorded.length_data {s : State F} (h : Recorded o r w x s) :
    (x.file.bytes.drop sizeofWavFileHdr).length = x.bytesWritten := by
  rw [h.data_eq, h.calls, length_written, Recording.bytesWritten, h.calls]

theorem Recorded.bytesWritten_eq {s : State F} (h : Recorded o r w x s)
    (hcaptures : ∀ c ∈ r.captures, c.block.Complete) : x.bytesWritten =
      match o.samplesToXfer with
      | none => 8 * sizes (r.captures.map Capture.block)
      | some n => min (8 * sizes (r.captures.map Capture.block)) (8 * (n.toNat % 2 ^ 61)) := by
  have hstart := h.start
  rw [Recording.bytesWritten, h.calls]
  cases hn : o.samplesToXfer with
  | none =>
    rw [hn] at hstart
    obtain rfl : _ = s := Option.some.inj hstart
    exact record_unlimited rfl rfl _ hcaptures
  | some n =>
    rw [hn] at hstart
    exact record_left (start_left hstart) _ hcaptures

theorem Recorded.rate_eq {s : State F} (h : Recorded o r w x s)
    (hrate : RateTable.maxSamplerateIndex < o.sampleRateVal) :
    o.sampleRateVal = x.world.device.currentSamplerate :=
  Option.some.inj ((RateTable.getElem?_resolve hrate h.supported).symm.trans h.currentSamplerate)

/-- **A recording** has a header that does not describe it: the number of bytes a second is wrong.
The rest of the header is right where the file is short enough for 32 bits and the rate is not
taken for an index. -/
theorem recordWav_not_describes (hrun : recordWav T o r w = some x) :
    (x.file.bytes.drop sizeofWavFileHdr).length = x.bytesWritten ∧
      ¬ x.header.Describes x.bytesWritten x.world.device.currentSamplerate ∧
      (x.header.Matches x.bytesWritten x.world.device.currentSamplerate ↔
        x.bytesWritten + 36 < 2 ^ 32 ∧ o.sampleRateVal = x.world.device.currentSamplerate) ∧
      (RateTable.maxSamplerateIndex < o.sampleRateVal →
        o.sampleRateVal = x.world.device.currentSamplerate) := by
  obtain ⟨s, h⟩ := recorded hrun
  rw [h.header_eq]
  exact ⟨h.length_data, finish_not_describes _ h.ne_zero, finish_matches_iff _, h.rate_eq⟩

/-! ### The contents -/

/-- The bytes of the blocks that the driver delivers. -/
def delivered (captures : List Capture) : List UInt8 := captures.flatMap Capture.data

/-- The bytes that are asked for: those of the first samples, if there is a limit. -/
def requested (samplesToXfer : Option UInt64) (data : List UInt8) : List UInt8 :=
  match samplesToXfer with
  | none => data
  | some n => data.take (8 * n.toNat)

theorem not_of_goes_on {p : Prop} [Decidable p] (h : (if p then (-1 : ℤ) else 0) = 0) : ¬ p :=
  fun hp => absurd ((if_pos hp).symm.trans h) (by decide)

/-- Only a block that was written to its end lets the stream go on. -/
theorem callback_whole (s : State F) (c : Capture) (h : (callback s c.block).1.1 = 0) :
    (callback s c.block).1.2 = c.data.length := by
  have hcut := toNat_cut s.bytesToXfer (c.block.sampleCount * 4 * 2).toUInt32
  have hsub := toNat_sub_cut s.bytesToXfer (c.block.sampleCount * 4 * 2).toUInt32
  rw [c.length_data]
  unfold callback at h ⊢
  cases hfd : s.fd with
  | false => simp [hfd] at h
  | true =>
  cases hlimit : s.limitNumSamples with
  | false =>
    simp only [hfd, hlimit, if_true, Bool.false_eq_true, if_false, false_and, or_false] at h ⊢
    exact not_not.1 (not_of_goes_on h)
  | true =>
    simp only [hfd, hlimit, if_true, true_and] at h ⊢
    obtain ⟨hwritten, hzero⟩ := not_or.1 (not_of_goes_on h)
    rw [← UInt64.toNat_inj, hsub, UInt64.toNat_zero] at hzero
    -- a block that is cut uses the limit up
    rw [not_not.1 hwritten, hcut]
    omega

theorem written_cons (c : Capture) (captures : List Capture) (call : ℤ × ℕ)
    (calls : List (ℤ × ℕ)) :
    written (c :: captures) (call :: calls) = c.data.take call.2 ++ written captures calls := rfl

/-- **Whatever `fwrite` writes**, the file holds the first bytes that were delivered. -/
theorem written_isPrefix (s : State F) (f : C.File) (captures : List Capture) :
    written captures (record s f captures).1 <+: delivered captures := by
  induction captures generalizing s f with
  | nil => exact List.prefix_rfl
  | cons c captures ih =>
    rw [record_cons]
    split
    · rename_i hgo
      rw [written_cons, callback_whole s c hgo, List.take_length]
      exact (List.prefix_append_right_inj _).2 (ih _ _)
    · rw [written_cons, show written captures [] = [] by simp [written], List.append_nil]
      exact (List.take_prefix _ _).trans (List.prefix_append _ _)

theorem length_delivered {captures : List Capture}
    (hcaptures : ∀ c ∈ captures, c.block.Complete) :
    (delivered captures).length = 8 * sizes (captures.map Capture.block) := by
  induction captures with
  | nil => rfl
  | cons c captures ih =>
    obtain ⟨hc, hcaptures⟩ := List.forall_mem_cons.1 hcaptures
    rw [delivered, List.flatMap_cons, List.length_append, c.length_data, hc.toNat_bytes,
      List.map_cons, sizes_cons, Nat.mul_add]
    exact congrArg _ (ih hcaptures)

/-- **The contents of a recording**: the file is the finished header and the first bytes of the
blocks that were delivered, whatever was written of them; and if every block could be written, those
are the bytes that were asked for, unless their number does not fit in 64 bits. -/
theorem recordWav_contents (hrun : recordWav T o r w = some x) :
    ∃ data, x.file.bytes =
        (waveFileHdr.finish (UInt32.ofNat (sizeofWavFileHdr + data.length)) o.sampleRateVal).bytes ++
          data ∧
      data <+: delivered r.captures ∧
      ((∀ c ∈ r.captures, c.block.Complete) → (∀ n ∈ o.samplesToXfer, n.toNat < 2 ^ 61) →
        data = requested o.samplesToXfer (delivered r.captures)) := by
  obtain ⟨s, h⟩ := recorded hrun
  have hlength := h.length_data
  have hprefix := written_isPrefix s (C.File.create.fwrite waveFileHdr.bytes) r.captures
  rw [h.data_eq] at hlength
  rw [← h.calls] at hprefix
  refine ⟨written r.captures x.calls, ?_, hprefix, fun hcaptures hlimit => ?_⟩
  · rw [hlength, h.bytes]
  · have hall := length_delivered hcaptures
    have hbytes := h.bytesWritten_eq hcaptures
    rw [List.prefix_iff_eq_take.1 hprefix, hlength, hbytes]
    cases hn : o.samplesToXfer with
    | none =>
      dsimp only [requested]
      rw [← hall, List.take_length]
    | some n =>
      have hfits := hlimit n hn
      dsimp only [requested]
      rw [List.take_eq_take_iff, hall, Nat.mod_eq_of_lt hfits]
      omega

end

/-- A block of two samples. -/
def twoSamples : Capture where
  block := block 2
  data := [0, 0, 0, 0, 0, 0, 128, 63, 0, 0, 128, 63, 0, 0, 0, 0]
  length_data := by decide
  fwrite_le _ := le_rfl

/-- A reception of one block. -/
def oneBlock : Reception ℚ := ⟨idle, 1, 0, ⟨fun _ => true, true, true⟩, [twoSamples], id⟩

theorem isSome_recordWav_oneBlock : (recordWav .x8664 { samplesToXfer := some 2 } oneBlock
    (.obliging .twoRates)).isSome = true := by
  decide +kernel

/-- Two samples. -/
theorem recordWav_oneBlock : ∃ x, recordWav .x8664 { samplesToXfer := some 2 } oneBlock
    (.obliging .twoRates) = some x ∧
    (x.file.bytes.drop sizeofWavFileHdr).length = x.bytesWritten ∧
      ¬ x.header.Describes x.bytesWritten x.world.device.currentSamplerate ∧
      (x.header.Matches x.bytesWritten x.world.device.currentSamplerate ↔
        x.bytesWritten + 36 < 2 ^ 32 ∧ 768000 = x.world.device.currentSamplerate) ∧
      (RateTable.maxSamplerateIndex < 768000 → 768000 = x.world.device.currentSamplerate) := by
  obtain ⟨x, hrun⟩ := Option.isSome_iff_exists.1 isSome_recordWav_oneBlock
  exact ⟨x, hrun, recordWav_not_describes hrun⟩

/-- Both samples are in the file. -/
theorem recordWav_oneBlock_contents : ∃ x, recordWav .x8664 { samplesToXfer := some 2 } oneBlock
    (.obliging .twoRates) = some x ∧ ∃ data, x.file.bytes =
      (waveFileHdr.finish (UInt32.ofNat (sizeofWavFileHdr + data.length)) 768000).bytes ++ data ∧
      data <+: delivered oneBlock.captures ∧
      data = requested (some 2) (delivered oneBlock.captures) := by
  obtain ⟨x, hrun⟩ := Option.isSome_iff_exists.1 isSome_recordWav_oneBlock
  obtain ⟨data, hbytes, hprefix, hdata⟩ := recordWav_contents hrun
  refine ⟨x, hrun, data, hbytes, hprefix, hdata (fun c hc => ?_) fun n hn => ?_⟩
  · rw [List.mem_singleton.1 hc]
    exact complete_block
  · obtain rfl := Option.some.inj hn
    decide

/-- The header of two samples announces 3072000 bytes a second for 768000 samples of 8 bytes. -/
theorem oneBlock_not_describes : ∃ x, recordWav .x8664 { samplesToXfer := some 2 } oneBlock
    (.obliging .twoRates) = some x ∧ x.bytesWritten = 16 ∧
      x.world.device.currentSamplerate = 768000 ∧
      x.header.fmtChunk.dwSamplesPerSec = 768000 ∧ x.header.fmtChunk.wBlockAlign = 8 ∧
      x.header.fmtChunk.dwAvgBytesPerSec = 3072000 ∧
      ¬ x.header.Describes x.bytesWritten x.world.device.currentSamplerate := by
  have hrun : (recordWav .x8664 { samplesToXfer := some 2 } oneBlock (.obliging .twoRates)).map
      (fun x => (x.bytesWritten, x.world.device.currentSamplerate,
        x.header.fmtChunk.dwSamplesPerSec, x.header.fmtChunk.wBlockAlign,
        x.header.fmtChunk.dwAvgBytesPerSec)) = some (16, 768000, 768000, 8, 3072000) := by
    decide +kernel
  obtain ⟨x, hx, hfields⟩ := Option.map_eq_some_iff.1 hrun
  simp only [Prod.mk.injEq] at hfields
  obtain ⟨hbytes, hstream, hrate, halign, havg⟩ := hfields
  refine ⟨x, hx, hbytes, hstream, hrate, halign, havg, ?_⟩
  intro hdescribes
  have heq := hdescribes.dwAvgBytesPerSec
  rw [hrate, halign, havg] at heq
  exact absurd heq (by decide)

end Rx

end AirspyHF
