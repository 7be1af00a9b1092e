import AirspyHF.C.Arith

/-!
# Vendor requests over the control endpoint

The driver talks to the receiver through `libusb_control_transfer`.  A `Request` is what the
driver asks for, a `Reply` is what the bus and the device do with it, and an `Exchange` is the
pair.

The bus may answer a request in every way libusb documents: with a negative error code, or with
any byte count up to the requested length (`Reply.result`).  A request is *complete* when the
result is exactly the requested length.
-/

namespace AirspyHF

/-- The error codes of the public interface. -/
inductive Status where
  | success
  | error
  | unsupported
  deriving DecidableEq, Repr

/-- The vendor requests of the receiver. -/
inductive VendorRequest where
  | receiverMode
  | setFreq
  | getSamplerates
  | setSamplerate
  | configRead
  | configWrite
  | getSerialnoBoardid
  | setUserOutput
  | getVersionString
  | setAgc
  | setAgcThreshold
  | setAtt
  | setLna
  | getSamplerateArchitectures
  | getFilterGain
  | getFreqDelta
  | setVctcxoCalibration
  | setFrontendOptions
  | getAttSteps
  | getBiasTeeCount
  | getBiasTeeName
  | setBiasTee
  deriving DecidableEq, Repr

/-- One call of `libusb_control_transfer`. -/
structure Request where
  /-- The vendor request code. -/
  command : VendorRequest
  /-- `wValue`. -/
  value : UInt16
  /-- `wIndex`. -/
  index : UInt16
  /-- The bytes sent to the device (empty for a request that reads). -/
  payload : List UInt8
  /-- `wLength`. -/
  length : UInt16

/-- A libusb error code: a negative `int`. -/
structure ErrorCode where
  /-- The value. -/
  val : ℤ
  /-- It is negative. -/
  neg : val < 0
  /-- It is an `int`. -/
  lower : -2 ^ 31 ≤ val

/-- What the bus does with one control transfer. -/
structure Reply where
  /-- The error code, if the transfer fails. -/
  error : Option ErrorCode
  /-- The number of bytes moved, if that is at most the requested length. -/
  count : ℕ
  /-- The bytes the device sends. -/
  data : ℕ → UInt8

namespace Reply

/-- The number of bytes moved by a transfer of `len` bytes. -/
def moved (r : Reply) (len : ℕ) : ℕ := min r.count len

/-- The value returned by `libusb_control_transfer` for a request of `len` bytes. -/
def result (r : Reply) (len : ℕ) : ℤ :=
  match r.error with
  | some e => e.val
  | none => r.moved len

/-- The caller's buffer after the transfer: its first bytes are those the device sent. -/
def fill {n : ℕ} (r : Reply) (len : ℕ) (buf : Fin n → UInt8) : Fin n → UInt8 :=
  fun i => if i.val < r.moved len then r.data i else buf i

/-- The request was answered by an error code. -/
def Failed (r : Reply) : Prop := r.error.isSome

instance (r : Reply) : Decidable r.Failed := inferInstanceAs (Decidable (_ = _))

/-- The request completes, whatever its length. -/
def full (data : ℕ → UInt8) : Reply := ⟨none, 2 ^ 16, data⟩

/-- The device is gone: `LIBUSB_ERROR_NO_DEVICE`. -/
def noDevice : Reply := ⟨some ⟨-4, by norm_num, by norm_num⟩, 0, fun _ => 0⟩

/-- No byte is moved. -/
def empty : Reply := ⟨none, 0, fun _ => 0⟩

theorem moved_le (r : Reply) (len : ℕ) : r.moved len ≤ len := min_le_right _ _

theorem result_of_failed {r : Reply} (h : r.Failed) (len : ℕ) :
    r.result len < 0 ∧ -2 ^ 31 ≤ r.result len := by
  obtain ⟨e, he⟩ := Option.isSome_iff_exists.1 h
  simp only [result, he]
  exact ⟨e.neg, e.lower⟩

theorem result_of_not_failed {r : Reply} (h : ¬ r.Failed) (len : ℕ) :
    r.result len = r.moved len := by
  have : r.error = none := by simpa [Failed] using h
  simp [result, this]

theorem not_failed_of_result_eq {r : Reply} {len n : ℕ} (h : r.result len = n) : ¬ r.Failed := by
  intro hf
  have := (result_of_failed hf len).1
  omega

/-- **What the size check lets through**: the check `result < sizeof(buf)` accepts exactly the
complete transfers and the failed ones. -/
theorem not_ltSizeT_result_iff {r : Reply} {len : ℕ} (hlen : len ≤ 2 ^ 16) :
    ¬ C.ltSizeT (r.result len) len ↔ r.Failed ∨ r.result len = len := by
  by_cases h : r.Failed
  · have hb := result_of_failed h len
    simp only [h, true_or, iff_true]
    exact C.not_ltSizeT_of_neg hb.1 hb.2 (by omega)
  · have hm := r.moved_le len
    rw [result_of_not_failed h, C.ltSizeT_iff_of_nonneg (by omega) (by omega)]
    simp only [h, false_or]
    omega

theorem not_failed_of_short {r : Reply} {len : ℕ} (hlen : len ≤ 2 ^ 16)
    (hs : C.ltSizeT (r.result len) len) : ¬ r.Failed :=
  fun hf => (not_ltSizeT_result_iff hlen).2 (.inl hf) hs

theorem not_complete_of_short {r : Reply} {len : ℕ} (hlen : len ≤ 2 ^ 16)
    (hs : C.ltSizeT (r.result len) len) : r.result len ≠ len :=
  fun hc => (not_ltSizeT_result_iff hlen).2 (.inr hc) hs

theorem fill_of_complete {n : ℕ} {r : Reply} (h : r.result n = n) (buf : Fin n → UInt8) :
    r.fill n buf = fun i : Fin n => r.data i := by
  rw [result_of_not_failed (not_failed_of_result_eq h)] at h
  funext i
  have := i.isLt
  rw [fill, if_pos (by omega)]

end Reply

/-- A request together with its reply. -/
structure Exchange where
  /-- What the driver asked. -/
  request : Request
  /-- What it got. -/
  reply : Reply

namespace Exchange

variable (e : Exchange)

/-- The value returned to the driver. -/
def result : ℤ := e.reply.result e.request.length.toNat

/-- The returned value is exactly the requested byte count. -/
def Complete : Prop := e.result = e.request.length.toNat

instance : Decidable e.Complete := inferInstanceAs (Decidable (_ = _))

variable {e}

theorem Complete.not_failed (h : e.Complete) : ¬ e.reply.Failed :=
  Reply.not_failed_of_result_eq h

theorem result_neg_iff : e.result < 0 ↔ e.reply.Failed := by
  refine ⟨fun h => ?_, fun hf => (Reply.result_of_failed hf _).1⟩
  by_contra hf
  rw [result, Reply.result_of_not_failed hf] at h
  omega

theorem complete_iff_of_length_zero (h : e.request.length.toNat = 0) :
    e.Complete ↔ ¬ e.reply.Failed := by
  refine ⟨Complete.not_failed, ?_⟩
  intro hf
  have := e.reply.moved_le e.request.length.toNat
  rw [Complete, result, Reply.result_of_not_failed hf]
  omega

theorem complete_full (q : Request) (data : ℕ → UInt8) : (Exchange.mk q (.full data)).Complete := by
  have hlength : q.length.toNat ≤ 2 ^ 16 := q.length.toNat_lt.le
  exact congrArg Nat.cast (min_eq_right hlength)

end Exchange

end AirspyHF
