import AirspyHF.Device.Basic
import Mathlib.Data.List.FinRange

/-!
# Starting and stopping the stream, as calls

`airspyhf_start` and `airspyhf_stop` seen from the application: one call, from its first to its
last assignment.  The outcome of every `libusb_submit_transfer` and `pthread_create` of a start is
an argument.  A stop waits for the threads of the library; what they do to the streaming state
meanwhile is an argument too (their steps are the subject of `AirspyHF.Stream.Engine`, which is
built from the same updates of `Stream`).
-/

namespace AirspyHF

/-- The modes of the receiver. -/
inductive ReceiverMode where
  | off
  | on
  deriving DecidableEq, Repr

/-- The numbers of the modes on the wire. -/
def ReceiverMode.code : ReceiverMode → UInt16
  | .off => 0
  | .on => 1

/-- The request that switches the receiver. -/
def receiverModeRequest (mode : ReceiverMode) : Request := ⟨.receiverMode, mode.code, 0, [], 0⟩

/-- `airspyhf_set_receiver_mode`. -/
def setReceiverMode (mode : ReceiverMode) (w : World) : Status × World :=
  if (w.exchange (receiverModeRequest mode)).result ≠ 0 then
    (.error, w.issue (receiverModeRequest mode))
  else (.success, w.issue (receiverModeRequest mode))

/-- The outcomes of the calls to libusb and the thread library during one `airspyhf_start`. -/
structure StartOutcomes where
  /-- The bus takes transfer `i`. -/
  submits : Fin transferCount → Bool
  /-- The consumer thread is created. -/
  consumerCreated : Bool
  /-- The transfer thread is created. -/
  transferCreated : Bool

namespace Stream

/-- The loop of `prepare_transfers` over the transfers still to be submitted. -/
def prepareTransfers (ok : Fin transferCount → Bool) :
    List (Fin transferCount) → Stream → Status × Stream
  | [], s => (.success, s)
  | i :: is, s =>
    if s.Submits (ok i) i then prepareTransfers ok is (s.submit i).countUp else (.error, s)

/-- `create_io_threads`. -/
def createIoThreads (o : StartOutcomes) (callback : Pointer) (s : Stream) : Status × Stream :=
  if s.Admits then
    match (s.accept callback).prepareTransfers o.submits (List.finRange transferCount) with
    | (.success, s) =>
      let s := s.resetQueue
      if o.consumerCreated then
        let s := s.createConsumer
        if o.transferCreated then (.success, s.createTransfer) else (.error, s)
      else (.error, s)
    | (status, s) => (status, s)
  else (.error, s)

/-- The first loop of `cancel_transfers`. -/
def cancelTransfers (s : Stream) : Stream :=
  (List.finRange transferCount).foldl (fun s i => s.cancelTransfer i) s

/-- `kill_io_threads`; `others` is what event handling and the threads of the library do to the
state until both threads are joined. -/
def killIoThreads (others : Stream → Stream) (s : Stream) : Status × Stream :=
  if s.stopRequested then
    (.success, (others s.clearStop.halt.cancelTransfers).joinTransfer.joinConsumer)
  else (.success, s)

end Stream

/-- `airspyhf_start`. -/
def start (callback ctx : Pointer) (o : StartOutcomes) (w : World) : Status × World :=
  match setReceiverMode .off
      (w.update fun d => { d with stream := d.stream.clearDrops, vec := (1, 0) }) with
  | (.success, w) =>
    match setReceiverMode .on w with
    | (.success, w) =>
      let (status, stream) := { w.device.stream with ctx := ctx }.createIoThreads o callback
      (status, w.update fun d => { d with stream := stream })
    | (status, w) => (status, w)
  | (status, w) => (status, w)

/-- `airspyhf_stop`. -/
def stop (others : Stream → Stream) (w : World) : Status × World :=
  let (result1, w) := setReceiverMode .off
    (w.update fun d => { d with stream := d.stream.requestStop })
  let (result2, stream) := w.device.stream.killIoThreads others
  -- a failed request does not stop the threads from being ended
  (if result2 ≠ .success then result2 else result1, w.update fun d => { d with stream := stream })

/-! ### What a call can do -/

theorem setReceiverMode_of_failed {mode : ReceiverMode} {w : World}
    (h : (w.bus w.log.length).Failed) :
    setReceiverMode mode w = (.error, w.issue (receiverModeRequest mode)) := by
  have hc := Exchange.complete_iff_of_length_zero (e := w.exchange (receiverModeRequest mode)) rfl
  exact if_pos (mt hc.1 (not_not.2 h))

theorem setReceiverMode_of_not_failed {mode : ReceiverMode} {w : World}
    (h : ¬ (w.bus w.log.length).Failed) :
    setReceiverMode mode w = (.success, w.issue (receiverModeRequest mode)) := by
  have hc := Exchange.complete_iff_of_length_zero (e := w.exchange (receiverModeRequest mode)) rfl
  exact if_neg (not_not.2 (hc.2 h))

/-- The world in which `create_io_threads` runs, both mode requests having been taken. -/
def readyToStream (ctx : Pointer) (w : World) : World :=
  ((w.update fun d =>
    { d with stream := { d.stream.clearDrops with ctx := ctx }, vec := (1, 0) }).issue
      (receiverModeRequest .off)).issue (receiverModeRequest .on)

/-- Everything a call of `airspyhf_start` can do. -/
inductive StartRun (callback ctx : Pointer) (o : StartOutcomes) (w : World) :
    Status × World → Prop
  /-- The receiver did not switch off. -/
  | offRefused (h : (w.bus w.log.length).Failed) : StartRun callback ctx o w (.error,
      (w.update fun d => { d with stream := d.stream.clearDrops, vec := (1, 0) }).issue
        (receiverModeRequest .off))
  /-- The receiver did not switch on. -/
  | onRefused (h : ¬ (w.bus w.log.length).Failed) (h' : (w.bus (w.log.length + 1)).Failed) :
      StartRun callback ctx o w (.error,
        ((w.update fun d => { d with stream := d.stream.clearDrops, vec := (1, 0) }).issue
          (receiverModeRequest .off)).issue (receiverModeRequest .on))
  /-- Both requests were taken, and `create_io_threads` decides. -/
  | threads (h : ¬ (w.bus w.log.length).Failed) (h' : ¬ (w.bus (w.log.length + 1)).Failed) :
      StartRun callback ctx o w
        (({ w.device.stream.clearDrops with ctx := ctx }.createIoThreads o callback).1,
          (readyToStream ctx w).update fun d =>
            { d with stream :=
              ({ w.device.stream.clearDrops with ctx := ctx }.createIoThreads o callback).2 })

theorem start_run (callback ctx : Pointer) (o : StartOutcomes) (w : World) :
    StartRun callback ctx o w (start callback ctx o w) := by
  unfold start
  by_cases h : (w.bus w.log.length).Failed
  · rw [setReceiverMode_of_failed (by exact h)]
    exact .offRefused h
  · rw [setReceiverMode_of_not_failed (by exact h)]
    by_cases h' : (w.bus (w.log.length + 1)).Failed
    · simp only
      rw [setReceiverMode_of_failed (by exact h')]
      exact .onRefused h h'
    · simp only
      rw [setReceiverMode_of_not_failed (by exact h')]
      exact .threads h h'

theorem start_device (callback ctx : Pointer) (o : StartOutcomes) (w : World) :
    ∃ stream, (start callback ctx o w).2.device =
      { w.device with stream := stream, vec := (1, 0) } := by
  have h := start_run callback ctx o w
  generalize start callback ctx o w = x at h ⊢
  cases h <;> exact ⟨_, rfl⟩

theorem stop_device (others : Stream → Stream) (w : World) :
    ∃ stream, (stop others w).2.device = { w.device with stream := stream } := by
  unfold stop
  by_cases h : (w.bus w.log.length).Failed
  · rw [setReceiverMode_of_failed (by exact h)]
    exact ⟨_, rfl⟩
  · rw [setReceiverMode_of_not_failed (by exact h)]
    exact ⟨_, rfl⟩

theorem stop_log (others : Stream → Stream) (w : World) :
    (stop others w).2.log = w.exchange (receiverModeRequest .off) :: w.log := by
  unfold stop
  by_cases h : (w.bus w.log.length).Failed
  · rw [setReceiverMode_of_failed (by exact h)]
    rfl
  · rw [setReceiverMode_of_not_failed (by exact h)]
    rfl

/-! ### The loop of `prepare_transfers` -/

namespace Stream

variable {ok : Fin transferCount → Bool} {is : List (Fin transferCount)} {s : Stream}

theorem prepareTransfers_success_iff (hn : is.Nodup) :
    (s.prepareTransfers ok is).1 = .success ↔ ∀ i ∈ is, s.Submits (ok i) i := by
  induction is generalizing s with
  | nil => simp [prepareTransfers]
  | cons i is ih =>
    obtain ⟨hi, hn⟩ := List.nodup_cons.1 hn
    rw [prepareTransfers, List.forall_mem_cons]
    by_cases h : s.Submits (ok i) i
    · rw [if_pos h, ih hn]
      simp only [h, true_and]
      refine forall₂_congr ?_
      intro j hj
      have hne : j ≠ i := fun e => hi (e ▸ hj)
      simp [Submits, submit, countUp, hne]
    · rw [if_neg h]
      simp [h]

theorem prepareTransfers_streaming : (s.prepareTransfers ok is).2.streaming = s.streaming := by
  induction is generalizing s with
  | nil => rfl
  | cons i is ih =>
    unfold prepareTransfers
    split
    · rw [ih]; rfl
    · rfl

end Stream

end AirspyHF
