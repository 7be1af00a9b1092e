import AirspyHF.Usb.Control
import Mathlib.Logic.Function.Basic
import Mathlib.Data.Fin.VecNotation

/-!
# The streaming state of a device

The fields of `airspyhf_device_t` that take part in streaming, together with the state libusb and
the operating system keep for them: which transfers are in flight and where each thread stands.

* `Queue` : the ring of received buffers, the buffers of the bulk transfers and the drop
  counters, with the critical section of the transfer callback (`Queue.receive`) and the two
  critical sections of the consumer (`Queue.take`, `Queue.release`).
* `ConsumerPc`, `PumpPc` : the program points of `consumer_threadproc` and `transfer_threadproc`.
* `Stream` : the streaming state, with the updates that `airspyhf_start` and `airspyhf_stop`
  are made of.

The ring indices are `Fin 8`: the code masks them with `RAW_BUFFER_COUNT - 1` on every write.
The transfers are allocated by `airspyhf_open` and freed by `airspyhf_close` only, so the tests
for a missing transfer array do not appear here.
-/

namespace AirspyHF

/-- `RAW_BUFFER_COUNT`. -/
abbrev rawBufferCount : ℕ := 8

/-- `transfer_count`. -/
abbrev transferCount : ℕ := 16

instance : NeZero rawBufferCount := ⟨by decide⟩

instance : NeZero transferCount := ⟨by decide⟩

/-- The address of a sample buffer. -/
abbrev Buffer := ℕ

/-- An application pointer (a callback or its context); `0` is `NULL`. -/
abbrev Pointer := ℕ

/-! ### The ring of received buffers -/

/-- The queue between the transfer callback and the consumer. -/
structure Queue where
  /-- `received_samples_queue`. -/
  receivedSamplesQueue : Fin rawBufferCount → Buffer
  /-- `dropped_buffers_queue`. -/
  droppedBuffersQueue : Fin rawBufferCount → UInt32
  /-- `dropped_buffers`. -/
  droppedBuffers : UInt32
  /-- `received_samples_queue_head`. -/
  head : Fin rawBufferCount
  /-- `received_samples_queue_tail`. -/
  tail : Fin rawBufferCount
  /-- `received_buffer_count`. -/
  receivedBufferCount : ℤ
  /-- The `buffer` of every bulk transfer. -/
  transferBuffer : Fin transferCount → Buffer

namespace Queue

variable (q : Queue)

/-- The queue after `allocate_transfers`, the buffers being numbered in the order of their
allocation. -/
def initial : Queue where
  receivedSamplesQueue i := i
  droppedBuffersQueue _ := 0
  droppedBuffers := 0
  head := 0
  tail := 0
  receivedBufferCount := 0
  transferBuffer i := rawBufferCount + i

/-- There is room for one more received buffer. -/
def HasRoom : Prop := q.receivedBufferCount < rawBufferCount

instance : Decidable q.HasRoom := inferInstanceAs (Decidable (_ < _))

/-- The branch of the callback's critical section that queues the buffer of transfer `i`: it
swaps it with the buffer at the head slot and stores the pending drop count in that slot. -/
def enqueue (i : Fin transferCount) : Queue :=
  { q with
    receivedSamplesQueue := Function.update q.receivedSamplesQueue q.head (q.transferBuffer i)
    transferBuffer := Function.update q.transferBuffer i (q.receivedSamplesQueue q.head)
    droppedBuffersQueue := Function.update q.droppedBuffersQueue q.head q.droppedBuffers
    droppedBuffers := 0
    head := q.head + 1
    receivedBufferCount := q.receivedBufferCount + 1 }

/-- The branch of the callback's critical section that drops the buffer. -/
def drop : Queue := { q with droppedBuffers := q.droppedBuffers + 1 }

/-- The critical section of `airspyhf_libusb_transfer_callback` for transfer `i`. -/
def receive (i : Fin transferCount) : Queue := if q.HasRoom then q.enqueue i else q.drop

theorem receivedBufferCount_receive (i : Fin transferCount) :
    (q.receive i).receivedBufferCount = q.receivedBufferCount ∨
      q.receivedBufferCount < rawBufferCount ∧
        (q.receive i).receivedBufferCount = q.receivedBufferCount + 1 := by
  unfold receive
  split
  · rename_i hr
    exact .inr ⟨hr, rfl⟩
  · exact .inl rfl

/-- The consumer picks up the slot at the tail and advances the tail. -/
def take : Queue := { q with tail := q.tail + 1 }

/-- The consumer gives the slot back: `received_buffer_count--`. -/
def release : Queue := { q with receivedBufferCount := q.receivedBufferCount - 1 }

/-- `airspyhf_start` clears the drop counters. -/
def clearDrops : Queue := { q with droppedBuffersQueue := fun _ => 0, droppedBuffers := 0 }

/-- `create_io_threads` empties the ring. -/
def reset : Queue := { q with head := 0, tail := 0, receivedBufferCount := 0 }

end Queue

/-! ### Threads and transfers -/

/-- Program points of `consumer_threadproc`.  The flag of a loop test says that `streaming` has
been read (and was true) and `stop_requested` is read next. -/
inductive ConsumerPc where
  /-- About to lock the mutex for the first time. -/
  | lock
  /-- Owns the mutex, at the test of the outer loop. -/
  | outer (half : Bool)
  /-- Owns the mutex, at the test of the inner loop. -/
  | inner (half : Bool)
  /-- Blocked on the condition variable. -/
  | wait
  /-- Woken up, about to get the mutex back. -/
  | relock
  /-- Owns the mutex, at the test after the inner loop. -/
  | check (half : Bool)
  /-- Owns the mutex, about to pick up the slot at the tail. -/
  | take
  /-- Converting the buffer of a slot and calling the user callback with it. -/
  | process (slot : Fin rawBufferCount) (buffer : Buffer) (dropped : UInt32)
  /-- The user callback returned non-zero: about to clear `streaming`. -/
  | halt (slot : Fin rawBufferCount) (buffer : Buffer)
  /-- About to lock the mutex and release the slot. -/
  | release (slot : Fin rawBufferCount) (buffer : Buffer)
  /-- Owns the mutex, about to clear `streaming` for the last time. -/
  | finish
  /-- About to unlock the mutex and return. -/
  | unlock
  /-- Returned. -/
  | done
  deriving DecidableEq, Repr

/-- Program points of `transfer_threadproc`. -/
inductive PumpPc where
  /-- At the loop test. -/
  | loop (half : Bool)
  /-- In `libusb_handle_events_timeout_completed`. -/
  | handling
  /-- Event handling failed: about to clear `streaming`. -/
  | halt
  /-- About to clear `streaming` for the last time. -/
  | finish
  /-- Returned. -/
  | done
  deriving DecidableEq, Repr

/-- State of a bulk transfer in libusb. -/
inductive TransferStatus where
  /-- Not submitted. -/
  | idle
  /-- Submitted. -/
  | inFlight
  /-- Submitted, and cancellation was asked for; its callback has not run yet. -/
  | cancelling
  deriving DecidableEq, Repr

/-- The streaming state of a device. -/
structure Stream where
  /-- `streaming`. -/
  streaming : Bool
  /-- `stop_requested`. -/
  stopRequested : Bool
  /-- `callback`. -/
  callback : Pointer
  /-- `ctx`. -/
  ctx : Pointer
  /-- The queue of received buffers. -/
  queue : Queue
  /-- What libusb is doing with every transfer. -/
  transferStatus : Fin transferCount → TransferStatus
  /-- `transfer_live`. -/
  transferLive : ℤ
  /-- The consumer threads ever started; a `pthread_t` is an index into this list. -/
  consumers : List ConsumerPc
  /-- The transfer threads ever started. -/
  pumps : List PumpPc
  /-- `consumer_thread`. -/
  consumerThread : Option ℕ
  /-- `consumer_thread_running`. -/
  consumerThreadRunning : Bool
  /-- `transfer_thread`. -/
  transferThread : Option ℕ
  /-- `transfer_thread_running`. -/
  transferThreadRunning : Bool

namespace Stream

variable (s : Stream)

/-- The transfer is submitted and its callback has not run. -/
def InFlight (i : Fin transferCount) : Prop := s.transferStatus i ≠ .idle

instance (i : Fin transferCount) : Decidable (s.InFlight i) :=
  inferInstanceAs (Decidable (_ ≠ _))

/-- `airspyhf_is_streaming`. -/
def isStreaming : Bool := s.streaming && !s.stopRequested

/-- The flags let `create_io_threads` proceed. -/
def Admits : Prop := s.streaming = false ∧ s.stopRequested = false

instance : Decidable s.Admits := inferInstanceAs (Decidable (_ ∧ _))

/-- The streaming state `airspyhf_open` leaves behind.  The buffers are numbered in the order of
their allocation. -/
def initial : Stream where
  streaming := false
  stopRequested := false
  callback := 0
  ctx := 0
  queue := .initial
  transferStatus _ := .idle
  transferLive := 0
  consumers := []
  pumps := []
  consumerThread := none
  consumerThreadRunning := false
  transferThread := none
  transferThreadRunning := false

/-! ### Starting -/

/-- `airspyhf_start` clears the drop counters. -/
def clearDrops : Stream := { s with queue := s.queue.clearDrops }

/-- `create_io_threads` stores the callback and raises the flag. -/
def accept (callback : Pointer) : Stream := { s with callback := callback, streaming := true }

/-- `libusb_submit_transfer` succeeds on transfer `i`; it refuses a transfer that is already in
flight, and otherwise the bus decides (`ok`). -/
def Submits (ok : Bool) (i : Fin transferCount) : Prop := s.transferStatus i = .idle ∧ ok = true

instance (ok : Bool) (i : Fin transferCount) : Decidable (s.Submits ok i) :=
  inferInstanceAs (Decidable (_ ∧ _))

/-- Transfer `i` was submitted. -/
def submit (i : Fin transferCount) : Stream :=
  { s with transferStatus := Function.update s.transferStatus i .inFlight }

/-- `transfer_live++`. -/
def countUp : Stream := { s with transferLive := s.transferLive + 1 }

/-- `transfer_live--`. -/
def countDown : Stream := { s with transferLive := s.transferLive - 1 }

/-- `create_io_threads` empties the ring. -/
def resetQueue : Stream := { s with queue := s.queue.reset }

/-- A consumer thread was created. -/
def createConsumer : Stream :=
  { s with
    consumers := s.consumers ++ [.lock]
    consumerThread := some s.consumers.length
    consumerThreadRunning := true }

/-- A transfer thread was created. -/
def createTransfer : Stream :=
  { s with
    pumps := s.pumps ++ [.loop false]
    transferThread := some s.pumps.length
    transferThreadRunning := true }

/-! ### Stopping -/

/-- `airspyhf_stop` raises the stop request. -/
def requestStop : Stream := { s with stopRequested := true }

/-- `kill_io_threads` clears the stop request. -/
def clearStop : Stream := { s with stopRequested := false }

/-- `streaming = false`. -/
def halt : Stream := { s with streaming := false }

/-- `libusb_cancel_transfer` on transfer `i`: only a transfer in flight is affected. -/
def cancelTransfer (i : Fin transferCount) : Stream :=
  if s.transferStatus i = .inFlight then
    { s with transferStatus := Function.update s.transferStatus i .cancelling }
  else s

/-- The callback of transfer `i` starts: libusb no longer holds the transfer. -/
def completeTransfer (i : Fin transferCount) : Stream :=
  { s with transferStatus := Function.update s.transferStatus i .idle }

/-- The transfer thread was joined. -/
def joinTransfer : Stream := { s with transferThreadRunning := false }

/-- The consumer thread was joined. -/
def joinConsumer : Stream := { s with consumerThreadRunning := false }

/-- The consumer thread `t` moves to `pc`. -/
def moveConsumer (t : ℕ) (pc : ConsumerPc) : Stream := { s with consumers := s.consumers.set t pc }

/-- The transfer thread `t` moves to `pc`. -/
def movePump (t : ℕ) (pc : PumpPc) : Stream := { s with pumps := s.pumps.set t pc }

end Stream

end AirspyHF
