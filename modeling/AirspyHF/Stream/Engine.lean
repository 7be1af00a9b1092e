import AirspyHF.Machine.Basic
import AirspyHF.Machine.Handle
import AirspyHF.Stream.Basic
import Mathlib.Data.Fintype.Card

/-!
# The streaming engine

The threads that take part in streaming, one shared access at a time:

* the application thread in `airspyhf_start` and `airspyhf_stop` (`AppPc`, `Engine.appStep`),
* the consumer threads (`ConsumerPc`, `Engine.consumerStep`),
* the transfer threads (`PumpPc`, `Engine.pumpStep`),
* the transfer callback that libusb is running (`CallbackPc`, `Engine.callbackStep`).

The flags are read and written without a lock, so every test of `streaming && !stop_requested` is
two steps.  The mutex protects the consumer's tests of the queue; the critical section of the
callback and the releasing of a slot are single steps that need the mutex to be free.

libusb runs one callback at a time, in a thread that handles events: a transfer thread, or the
application thread while it waits for a control request or polls.  A callback takes its transfer
out of flight when it starts (`Engine.dispatch`).  A thread waiting on the condition variable may
wake up at any time, as POSIX allows, so signalling it is a step without effect.
-/

namespace AirspyHF

/-- Program points of the application thread. -/
inductive AppPc where
  /-- In no call; the flag says that the last call was a stop. -/
  | idle (stopped : Bool)
  /-- Starting, in the request that switches the receiver off. -/
  | startOff (callback ctx : Pointer)
  /-- Starting, in the request that switches the receiver on. -/
  | startOn (callback ctx : Pointer)
  /-- At the test of `create_io_threads`; the flag says that `streaming` was read and was false. -/
  | startTest (callback : Pointer) (half : Bool)
  /-- About to submit transfer `i`. -/
  | submit (i : ℕ)
  /-- Transfer `i` is submitted and about to be counted. -/
  | submitted (i : ℕ)
  /-- About to empty the ring. -/
  | reset
  /-- About to create the consumer thread. -/
  | createConsumer
  /-- About to create the transfer thread. -/
  | createTransfer
  /-- Stopping, in the request that switches the receiver off. -/
  | stopOff
  /-- At the test of `kill_io_threads`. -/
  | kill
  /-- About to clear `streaming`. -/
  | halt
  /-- About to cancel transfer `i`. -/
  | cancel (i : ℕ)
  /-- At the test of the drain loop, after `n` polls. -/
  | drain (n : ℕ)
  /-- In the poll of the drain loop after `n` others. -/
  | poll (n : ℕ)
  /-- About to signal the consumer. -/
  | signal
  /-- About to join the transfer thread. -/
  | joinTransfer
  /-- About to join the consumer thread. -/
  | joinConsumer
  /-- In the last poll. -/
  | finalPoll
  deriving DecidableEq, Repr

/-- The thread is in a call of libusb that handles events. -/
def AppPc.Handles : AppPc → Prop
  | .startOff .. | .startOn .. | .stopOff | .poll _ | .finalPoll => True
  | _ => False

instance : DecidablePred AppPc.Handles := fun pc => by
  unfold AppPc.Handles
  split <;> infer_instance

/-- Program points of `airspyhf_libusb_transfer_callback` for transfer `i`; `complete` says that
the transfer was completed in full. -/
inductive CallbackPc where
  /-- About to count the transfer as not live. -/
  | account (i : Fin transferCount) (complete : Bool)
  /-- At the test of the flags. -/
  | test (i : Fin transferCount) (complete half : Bool)
  /-- About to lock the mutex for the critical section. -/
  | lock (i : Fin transferCount)
  /-- About to resubmit the transfer. -/
  | submit (i : Fin transferCount)
  /-- The transfer is resubmitted and about to be counted. -/
  | countUp
  /-- About to clear `streaming`. -/
  | fail
  deriving DecidableEq, Repr

/-- A thread that handles events. -/
inductive Handler where
  | app
  | pump (t : ℕ)
  deriving DecidableEq, Repr

/-- The number of transfers in flight. -/
def Stream.inFlight (s : Stream) : ℕ := (Finset.univ.filter s.InFlight).card

/-- The state of the engine. -/
structure Engine where
  /-- The streaming state of the device. -/
  stream : Stream
  /-- Where the application thread stands. -/
  app : AppPc
  /-- The callback that libusb is running, and the thread that runs it. -/
  callback : Option (Handler × CallbackPc)
  /-- The consumer thread that owns the mutex. -/
  mutex : Option ℕ

/-- The steps of the engine. -/
inductive EngineStep where
  /-- The application calls `airspyhf_start`. -/
  | callStart (callback ctx : Pointer)
  /-- The application calls `airspyhf_stop`. -/
  | callStop
  /-- The application thread moves; `ok` is the outcome of the request, submission or thread
  creation it is at. -/
  | app (ok : Bool)
  /-- Consumer thread `t` moves; `ret` says whether the user callback returns non-zero. -/
  | consumer (t : ℕ) (ret : Bool)
  /-- Transfer thread `t` moves; `fails` says whether the event handling fails. -/
  | pump (t : ℕ) (fails : Bool)
  /-- libusb starts the callback of transfer `i` in the thread `h`. -/
  | dispatch (h : Handler) (i : Fin transferCount) (complete : Bool)
  /-- The callback moves; `ok` is the outcome of the resubmission. -/
  | callback (ok : Bool)
  deriving DecidableEq, Repr

namespace Engine

/-- The engine of an opened device. -/
def initial : Engine := ⟨.initial, .idle false, none, none⟩

variable (s : Engine)

/-- The application thread moves. -/
def appTo (stream : Stream) (pc : AppPc) : Engine := { s with stream := stream, app := pc }

/-- Consumer thread `t` moves. -/
def consumerTo (t : ℕ) (stream : Stream) (mutex : Option ℕ) (pc : ConsumerPc) : Engine :=
  { s with stream := stream.moveConsumer t pc, mutex := mutex }

/-- Transfer thread `t` moves. -/
def pumpTo (t : ℕ) (stream : Stream) (pc : PumpPc) : Engine :=
  { s with stream := stream.movePump t pc }

/-- The thread is not running a callback, so its call of libusb may return. -/
def Returns (h : Handler) : Prop := ∀ pc, s.callback ≠ some (h, pc)

instance (h : Handler) : Decidable (s.Returns h) :=
  match hc : s.callback with
  | none => isTrue fun _ he => nomatch hc.symm.trans he
  | some (h', pc) =>
    if he : h' = h then isFalse fun hr => hr pc (hc.trans (by rw [he]))
    else isTrue fun pc' hs => he (by injection hc.symm.trans hs with hs; exact (Prod.mk.inj hs).1)

/-! ### The steps -/

/-- One step of the application thread in `airspyhf_start` or `airspyhf_stop`. -/
def appStep (ok : Bool) : Option Engine :=
  match s.app with
  | .idle _ => none
  | .startOff callback ctx =>
    if s.Returns .app then
      some (s.appTo s.stream (if ok then .startOn callback ctx else .idle false))
    else none
  | .startOn callback ctx =>
    if s.Returns .app then
      some (if ok then s.appTo { s.stream with ctx := ctx } (.startTest callback false)
        else s.appTo s.stream (.idle false))
    else none
  -- create_io_threads: `streaming` is read first, then `stop_requested`
  | .startTest callback false =>
    some (s.appTo s.stream (if s.stream.streaming then .idle false else .startTest callback true))
  | .startTest callback true =>
    some (if s.stream.stopRequested then s.appTo s.stream (.idle false)
      else s.appTo (s.stream.accept callback) (.submit 0))
  -- prepare_transfers: after a refused submission `streaming` stays set
  | .submit i =>
    if h : i < transferCount then
      some (if s.stream.Submits ok ⟨i, h⟩ then s.appTo (s.stream.submit ⟨i, h⟩) (.submitted i)
        else s.appTo s.stream (.idle false))
    else some (s.appTo s.stream .reset)
  | .submitted i => some (s.appTo s.stream.countUp (.submit (i + 1)))
  | .reset => some (s.appTo s.stream.resetQueue .createConsumer)
  | .createConsumer =>
    some (if ok then s.appTo s.stream.createConsumer .createTransfer
      else s.appTo s.stream (.idle false))
  | .createTransfer =>
    some (s.appTo (if ok then s.stream.createTransfer else s.stream) (.idle false))
  | .stopOff => if s.Returns .app then some (s.appTo s.stream .kill) else none
  -- kill_io_threads: the request is cleared before `streaming`
  | .kill =>
    some (if s.stream.stopRequested then s.appTo s.stream.clearStop .halt
      else s.appTo s.stream (.idle true))
  | .halt => some (s.appTo s.stream.halt (.cancel 0))
  | .cancel i =>
    if h : i < transferCount then
      some (s.appTo (s.stream.cancelTransfer ⟨i, h⟩) (.cancel (i + 1)))
    else some (s.appTo s.stream (.drain 0))
  -- cancel_transfers: at most as many polls as there are transfers
  | .drain n =>
    some (s.appTo s.stream
      (if n < transferCount ∧ 0 < s.stream.transferLive then .poll n else .signal))
  | .poll n => if s.Returns .app then some (s.appTo s.stream (.drain (n + 1))) else none
  | .signal => if s.mutex = none then some (s.appTo s.stream .joinTransfer) else none
  | .joinTransfer =>
    if s.stream.transferThreadRunning then
      if Joinable .done s.stream.pumps s.stream.transferThread then
        some (s.appTo s.stream.joinTransfer .joinConsumer)
      else none
    else some (s.appTo s.stream .joinConsumer)
  | .joinConsumer =>
    if s.stream.consumerThreadRunning then
      if Joinable .done s.stream.consumers s.stream.consumerThread then
        some (s.appTo s.stream.joinConsumer .finalPoll)
      else none
    else some (s.appTo s.stream .finalPoll)
  | .finalPoll => if s.Returns .app then some (s.appTo s.stream (.idle true)) else none

/-- One step of consumer thread `t` at `pc`. -/
def consumerStep (t : ℕ) (ret : Bool) : ConsumerPc → Option Engine
  | .lock => if s.mutex = none then some (s.consumerTo t s.stream (some t) (.outer false)) else none
  | .outer false =>
    some (s.consumerTo t s.stream s.mutex (if s.stream.streaming then .outer true else .finish))
  | .outer true =>
    some (s.consumerTo t s.stream s.mutex
      (if s.stream.stopRequested then .finish else .inner false))
  -- the inner `while` waits for a buffer
  | .inner false =>
    some (s.consumerTo t s.stream s.mutex
      (if s.stream.queue.receivedBufferCount = 0 ∧ s.stream.streaming then .inner true
        else .check false))
  | .inner true =>
    some (if s.stream.stopRequested then s.consumerTo t s.stream s.mutex (.check false)
      else s.consumerTo t s.stream none .wait)
  | .wait => some (s.consumerTo t s.stream s.mutex .relock)
  | .relock =>
    if s.mutex = none then some (s.consumerTo t s.stream (some t) (.inner false)) else none
  -- the test after it does not look at the count again
  | .check false =>
    some (s.consumerTo t s.stream s.mutex (if s.stream.streaming then .check true else .finish))
  | .check true =>
    some (s.consumerTo t s.stream s.mutex (if s.stream.stopRequested then .finish else .take))
  | .take =>
    let q := s.stream.queue
    some (s.consumerTo t { s.stream with queue := q.take } none
      (.process q.tail (q.receivedSamplesQueue q.tail) (q.droppedBuffersQueue q.tail)))
  -- convert_samples and the user callback run without the mutex
  | .process slot buffer _ =>
    some (s.consumerTo t s.stream s.mutex (if ret then .halt slot buffer else .release slot buffer))
  | .halt slot buffer => some (s.consumerTo t s.stream.halt s.mutex (.release slot buffer))
  | .release _ _ =>
    if s.mutex = none then
      some (s.consumerTo t { s.stream with queue := s.stream.queue.release } (some t)
        (.outer false))
    else none
  -- a consumer that leaves ends streaming for every thread
  | .finish => some (s.consumerTo t s.stream.halt s.mutex .unlock)
  | .unlock => some (s.consumerTo t s.stream none .done)
  | .done => none

/-- One step of transfer thread `t` at `pc`. -/
def pumpStep (t : ℕ) (fails : Bool) : PumpPc → Option Engine
  | .loop false =>
    some (s.pumpTo t s.stream (if s.stream.streaming then .loop true else .finish))
  | .loop true =>
    some (s.pumpTo t s.stream (if s.stream.stopRequested then .finish else .handling))
  -- libusb_handle_events_timeout_completed returns once it runs no callback
  | .handling =>
    if s.Returns (.pump t) then
      some (s.pumpTo t s.stream (if fails then .halt else .loop false))
    else none
  | .halt => some (s.pumpTo t s.stream.halt (.loop false))
  | .finish => some (s.pumpTo t s.stream.halt .done)
  | .done => none

/-- The thread is handling events. -/
def Handling : Handler → Prop
  | .app => s.app.Handles
  | .pump t => s.stream.pumps[t]? = some .handling

instance (h : Handler) : Decidable (s.Handling h) := by
  cases h <;> unfold Handling <;> infer_instance

/-- The callback of transfer `i` starts in the thread `h`. -/
def dispatch (h : Handler) (i : Fin transferCount) (complete : Bool) : Engine :=
  { s with
    stream := s.stream.completeTransfer i
    callback := some (h, .account i complete) }

/-- One step of the callback that runs in the thread `h`. -/
def callbackStep (h : Handler) (ok : Bool) : CallbackPc → Option Engine
  -- `transfer_live--` comes before the test of the flags
  | .account i complete =>
    some { s with stream := s.stream.countDown, callback := some (h, .test i complete false) }
  | .test i complete false =>
    some { s with callback := if s.stream.streaming then some (h, .test i complete true) else none }
  | .test i complete true =>
    some { s with
      callback :=
        if s.stream.stopRequested then none
        else if complete then some (h, .lock i) else some (h, .fail) }
  | .lock i =>
    if s.mutex = none then
      some { s with
        stream := { s.stream with queue := s.stream.queue.receive i }
        callback := some (h, .submit i) }
    else none
  -- the transfer is counted only after it is in flight again
  | .submit i =>
    some (if s.stream.Submits ok i then
        { s with stream := s.stream.submit i, callback := some (h, .countUp) }
      else { s with callback := some (h, .fail) })
  | .countUp => some { s with stream := s.stream.countUp, callback := none }
  | .fail => some { s with stream := s.stream.halt, callback := none }

/-- The machine of the engine. -/
def machine : Machine Engine EngineStep where
  step s
    | .callStart callback ctx =>
      match s.app with
      | .idle _ => some (s.appTo s.stream.clearDrops (.startOff callback ctx))
      | _ => none
    | .callStop =>
      match s.app with
      | .idle _ => some (s.appTo s.stream.requestStop .stopOff)
      | _ => none
    | .app ok => s.appStep ok
    | .consumer t ret => s.stream.consumers[t]?.bind (s.consumerStep t ret)
    | .pump t fails => s.stream.pumps[t]?.bind (s.pumpStep t fails)
    | .dispatch h i complete =>
      if s.callback = none ∧ s.Handling h ∧ s.stream.InFlight i then some (s.dispatch h i complete)
      else none
    | .callback ok => s.callback.bind fun c => s.callbackStep c.1 ok c.2

end Engine

end AirspyHF
