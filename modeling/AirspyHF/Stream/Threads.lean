import AirspyHF.Stream.Moves

/-!
# The threads of a device

A device has one handle for its consumer thread and one for its transfer thread, so it can stop at
most one of each.  `create_io_threads` starts new threads as soon as the flags are clear, and the
flags are cleared by whoever ends streaming, while the threads of that session may still run: a
consumer that waits on its condition variable is not even woken up.  If the threads have exited
whenever a start is admitted (`Engine.StartsQuietly`), there is at most one of each at any time,
and a stop waits for them (`Threads`).

The number of received buffers stays between `0` and `8` (`Counted`), with one more condition.
`kill_io_threads` clears `stop_requested` before it clears `streaming`.  A consumer that left its
inner loop because of the request, and tests the flags again in between, finds both as while
streaming, and takes a slot although there is none (`Engine.NoStaleTest`).
-/

namespace AirspyHF

/-! ### Parts of the calls -/

/-- A start was admitted and has not created the consumer thread, or a stop has joined it. -/
def AppPc.ConsumersDone : AppPc → Prop
  | .submit _ | .submitted _ | .reset | .createConsumer | .finalPoll | .idle true => True
  | _ => False

/-- A start was admitted and has not created the transfer thread, or a stop has joined it. -/
def AppPc.PumpsDone : AppPc → Prop
  | .submit _ | .submitted _ | .reset | .createConsumer | .createTransfer | .joinConsumer
  | .finalPoll | .idle true => True
  | _ => False

/-- A stop has raised `stop_requested` and not cleared it. -/
def AppPc.Stopping : AppPc → Prop
  | .stopOff | .kill => True
  | _ => False

namespace Engine

variable (s : Engine)

/-- All consumer threads have exited. -/
def ConsumersDone : Prop := AllDone .done s.stream.consumers

/-- All transfer threads have exited. -/
def PumpsDone : Prop := AllDone .done s.stream.pumps

/-- **First condition**: when `create_io_threads` admits a start, the threads of earlier sessions
have exited. -/
def StartsQuietly : EngineStep → Prop
  | .app _ => match s.app with
    | .startTest _ true => s.stream.stopRequested = false → s.ConsumersDone ∧ s.PumpsDone
    | _ => True
  | _ => True

/-- **Second condition**: when `kill_io_threads` clears `stop_requested`, no consumer stands at its
second test of the flags without a received buffer. -/
def NoStaleTest : EngineStep → Prop
  | .app _ => s.app = .kill → ∀ pc ∈ s.stream.consumers, pc = .check false ∨ pc = .check true →
      s.stream.queue.receivedBufferCount ≠ 0
  | _ => True

instance : Decidable s.ConsumersDone := inferInstanceAs (Decidable (AllDone _ _))
instance : Decidable s.PumpsDone := inferInstanceAs (Decidable (AllDone _ _))

instance (l : EngineStep) : Decidable (s.StartsQuietly l) := by
  unfold StartsQuietly
  split
  · split <;> infer_instance
  · infer_instance

instance (l : EngineStep) : Decidable (s.NoStaleTest l) := by
  unfold NoStaleTest
  cases l <;> infer_instance

end Engine

/-! ### At most one of each -/

/-- The invariant of the threads. -/
structure Threads (s : Engine) : Prop where
  consumer : OneHandle .done s.stream.consumers s.stream.consumerThread
    s.stream.consumerThreadRunning
  pump : OneHandle .done s.stream.pumps s.stream.transferThread s.stream.transferThreadRunning
  consumersDone : s.app.ConsumersDone → s.ConsumersDone
  pumpsDone : s.app.PumpsDone → s.PumpsDone
  stopping : s.app.Stopping → s.stream.stopRequested = true
  /-- A callback runs in a thread that handles events. -/
  handler : ∀ h pc, s.callback = some (h, pc) → s.Handling h

/-- Nothing about the threads changed. -/
structure Stream.SameThreads (a b : Stream) : Prop where
  consumers : b.consumers = a.consumers
  pumps : b.pumps = a.pumps
  consumerThread : b.consumerThread = a.consumerThread
  consumerThreadRunning : b.consumerThreadRunning = a.consumerThreadRunning
  transferThread : b.transferThread = a.transferThread
  transferThreadRunning : b.transferThreadRunning = a.transferThreadRunning

namespace Threads

open Engine

variable {s s' : Engine}

theorem initial : Threads .initial where
  consumer := nofun
  pump := nofun
  consumersDone := nofun
  pumpsDone := nofun
  stopping := nofun
  handler := nofun

/-! #### The application thread -/

theorem handler_of_returns (h : Threads s) (hr : s.app.Handles → s.Returns .app) {hd : Handler}
    {pc : CallbackPc} (hc : s.callback = some (hd, pc)) :
    ∃ t, hd = .pump t ∧ s.stream.pumps[t]? = some .handling := by
  cases hd with
  | app => exact absurd hc (hr (h.handler _ _ hc) pc)
  | pump t => exact ⟨t, rfl, h.handler _ _ hc⟩

theorem callback_eq_none (h : Threads s) (hp : s.app.PumpsDone) (ha : ¬ s.app.Handles) :
    s.callback = none := by
  by_contra hne
  obtain ⟨⟨hd, pc⟩, hc⟩ := Option.ne_none_iff_exists'.1 hne
  have hh := h.handler hd pc hc
  cases hd with
  | app => exact ha hh
  | pump t => exact absurd (h.pumpsDone hp _ (List.mem_of_getElem? hh)) nofun

/-- A step that does not change the threads. -/
theorem appTo (h : Threads s) {stream : Stream} {pc : AppPc}
    (hsame : s.stream.SameThreads stream) (hr : s.app.Handles → s.Returns .app)
    (hc : pc.ConsumersDone → s.ConsumersDone) (hp : pc.PumpsDone → s.PumpsDone)
    (hst : pc.Stopping → stream.stopRequested = true) : Threads (s.appTo stream pc) where
  consumer := by
    rw [Engine.appTo, hsame.consumers, hsame.consumerThread, hsame.consumerThreadRunning]
    exact h.consumer
  pump := by
    rw [Engine.appTo, hsame.pumps, hsame.transferThread, hsame.transferThreadRunning]
    exact h.pump
  consumersDone hpc := by
    rw [Engine.ConsumersDone, Engine.appTo, hsame.consumers]
    exact hc hpc
  pumpsDone hpc := by
    rw [Engine.PumpsDone, Engine.appTo, hsame.pumps]
    exact hp hpc
  stopping := hst
  handler hd pc hcb := by
    obtain ⟨t, rfl, ht⟩ := h.handler_of_returns hr hcb
    exact (congrArg (·[t]?) hsame.pumps).trans ht

theorem createConsumer (h : Threads s) (happ : s.app = .createConsumer) :
    Threads (s.appTo s.stream.createConsumer .createTransfer) where
  consumer := .create (h.consumersDone (happ ▸ trivial)) _
  pump := h.pump
  consumersDone := nofun
  pumpsDone _ := h.pumpsDone (happ ▸ trivial)
  stopping := nofun
  handler hd pc hcb := by
    obtain ⟨t, rfl, ht⟩ := h.handler_of_returns (happ ▸ nofun) hcb
    exact ht

theorem createTransfer (h : Threads s) (happ : s.app = .createTransfer) :
    Threads (s.appTo s.stream.createTransfer (.idle false)) where
  consumer := h.consumer
  pump := .create (h.pumpsDone (happ ▸ trivial)) _
  consumersDone := nofun
  pumpsDone := nofun
  stopping := nofun
  handler hd pc hcb := by
    obtain ⟨t, rfl, ht⟩ := h.handler_of_returns (happ ▸ nofun) hcb
    exact (List.getElem?_append_left (List.getElem?_eq_some_iff.1 ht).1).trans ht

theorem joinTransfer (h : Threads s) (happ : s.app = .joinTransfer)
    (hj : Joinable .done s.stream.pumps s.stream.transferThread) :
    Threads (s.appTo s.stream.joinTransfer .joinConsumer) where
  consumer := h.consumer
  pump := (h.pump.allDone_of_joinable hj).oneHandle
  consumersDone := nofun
  pumpsDone _ := h.pump.allDone_of_joinable hj
  stopping := nofun
  handler hd pc hcb := by
    obtain ⟨t, rfl, ht⟩ := h.handler_of_returns (happ ▸ nofun) hcb
    exact ht

theorem joinConsumer (h : Threads s) (happ : s.app = .joinConsumer)
    (hj : Joinable .done s.stream.consumers s.stream.consumerThread) :
    Threads (s.appTo s.stream.joinConsumer .finalPoll) where
  consumer := (h.consumer.allDone_of_joinable hj).oneHandle
  pump := h.pump
  consumersDone _ := h.consumer.allDone_of_joinable hj
  pumpsDone _ := h.pumpsDone (happ ▸ trivial)
  stopping := nofun
  handler hd pc hcb := by
    obtain ⟨t, rfl, ht⟩ := h.handler_of_returns (happ ▸ nofun) hcb
    exact ht

theorem app {ok : Bool} (h : Threads s) (hm : s.AppMoves s') (hq : s.StartsQuietly (.app ok)) :
    Threads s' := by
  cases hm with
  | offTaken happ hr | offRefused happ hr | onRefused happ hr | onTaken happ hr
  | pollReturn happ hr =>
    exact h.appTo ⟨rfl, rfl, rfl, rfl, rfl, rfl⟩ (fun _ => hr) nofun nofun nofun
  | testStreaming happ | testRefused happ | submitRefused happ | consumerRefused happ
  | transferRefused happ | kill happ | halt happ | cancelDone happ | poll happ | drained happ
  | signal happ =>
    exact h.appTo ⟨rfl, rfl, rfl, rfl, rfl, rfl⟩ (happ ▸ nofun) nofun nofun nofun
  | accept happ hs =>
    rw [StartsQuietly, happ] at hq
    exact h.appTo ⟨rfl, rfl, rfl, rfl, rfl, rfl⟩ (happ ▸ nofun) (fun _ => (hq hs).1)
      (fun _ => (hq hs).2) nofun
  | submit happ | submitDone happ | counted happ | reset happ =>
    exact h.appTo ⟨rfl, rfl, rfl, rfl, rfl, rfl⟩ (happ ▸ nofun)
      (fun _ => h.consumersDone (happ ▸ trivial)) (fun _ => h.pumpsDone (happ ▸ trivial)) nofun
  | createConsumer happ => exact h.createConsumer happ
  | createTransfer happ => exact h.createTransfer happ
  | stopOff happ hr =>
    exact h.appTo ⟨rfl, rfl, rfl, rfl, rfl, rfl⟩ (fun _ => hr) nofun nofun
      fun _ => h.stopping (happ ▸ trivial)
  | killSkip happ hs => exact absurd (hs.symm.trans (h.stopping (happ ▸ trivial))) nofun
  | cancel happ hi =>
    obtain ⟨status, he⟩ := s.stream.cancelTransfer_eq ⟨_, hi⟩
    rw [he]
    exact h.appTo ⟨rfl, rfl, rfl, rfl, rfl, rfl⟩ (happ ▸ nofun) nofun nofun nofun
  | joinTransfer happ hj => exact h.joinTransfer happ hj
  | skipTransfer happ hr =>
    exact h.appTo ⟨rfl, rfl, rfl, rfl, rfl, rfl⟩ (happ ▸ nofun) nofun
      (fun _ => h.pump.allDone_of_not_running hr) nofun
  | joinConsumer happ hj => exact h.joinConsumer happ hj
  | skipConsumer happ hr =>
    exact h.appTo ⟨rfl, rfl, rfl, rfl, rfl, rfl⟩ (happ ▸ nofun)
      (fun _ => h.consumer.allDone_of_not_running hr) (fun _ => h.pumpsDone (happ ▸ trivial)) nofun
  | stopped happ hr =>
    exact h.appTo ⟨rfl, rfl, rfl, rfl, rfl, rfl⟩ (fun _ => hr)
      (fun _ => h.consumersDone (happ ▸ trivial)) (fun _ => h.pumpsDone (happ ▸ trivial)) nofun

/-! #### The other threads -/

theorem consumerMove (h : Threads s) {t : ℕ} {pc : ConsumerPc}
    (hpc : s.stream.consumers[t]? = some pc) (hm : s.ConsumerMoves t pc s') : Threads s' := by
  obtain ⟨hne, streaming, queue, mutex, pc', rfl⟩ := hm.frame
  refine ⟨h.consumer.move hpc hne pc', h.pump, ?_, h.pumpsDone, h.stopping, h.handler⟩
  intro hc
  -- where all consumer threads have exited, none moves
  exact absurd (h.consumersDone hc pc (List.mem_of_getElem? hpc)) hne

theorem pumpMove (h : Threads s) {t : ℕ} {pc : PumpPc} (hpc : s.stream.pumps[t]? = some pc)
    (hm : s.PumpMoves t pc s') : Threads s' := by
  obtain ⟨hne, hr, streaming, pc', rfl⟩ := hm.frame
  refine ⟨h.consumer, h.pump.move hpc hne pc', h.consumersDone, ?_, h.stopping, ?_⟩
  · intro hp
    exact absurd (h.pumpsDone hp pc (List.mem_of_getElem? hpc)) hne
  · intro hd cpc hc
    have hh := h.handler hd cpc hc
    cases hd with
    | app => exact hh
    | pump t' =>
      -- the thread that runs the callback does not move
      have htt : t ≠ t' := by
        rintro rfl
        exact hr (Option.some.inj (hpc.symm.trans hh)) cpc hc
      exact (List.getElem?_set_ne htt).trans hh

theorem callbackMove (h : Threads s) {hd : Handler} {pc : CallbackPc}
    (hc : s.callback = some (hd, pc)) (hm : s.CallbackMoves hd pc s') : Threads s' := by
  obtain ⟨streaming, queue, status, live, callback, rfl, hsame⟩ := hm.frame
  refine ⟨h.consumer, h.pump, h.consumersDone, h.pumpsDone, h.stopping, ?_⟩
  intro hd' pc' hc'
  obtain rfl := hsame hd' pc' hc'
  have hh := h.handler _ _ hc
  cases hd' <;> exact hh

theorem dispatch (h : Threads s) {hd : Handler} (hh : s.Handling hd) (i : Fin transferCount)
    (complete : Bool) : Threads (s.dispatch hd i complete) := by
  refine ⟨h.consumer, h.pump, h.consumersDone, h.pumpsDone, h.stopping, ?_⟩
  intro hd' pc' hc'
  obtain ⟨rfl, -⟩ := Prod.mk.inj (Option.some.inj hc')
  cases hd <;> exact hh

/-- **One step** keeps the invariant, if every start is admitted quietly. -/
theorem step {l : EngineStep} (h : Threads s) (hq : s.StartsQuietly l)
    (hs : machine.step s l = some s') : Threads s' := by
  cases moves_of_step hs with
  | callStart happ =>
    exact h.appTo ⟨rfl, rfl, rfl, rfl, rfl, rfl⟩ (happ ▸ nofun) nofun nofun nofun
  | callStop happ =>
    exact h.appTo ⟨rfl, rfl, rfl, rfl, rfl, rfl⟩ (happ ▸ nofun) nofun nofun fun _ => rfl
  | app hm => exact h.app hm hq
  | consumer hpc hm => exact h.consumerMove hpc hm
  | pump hpc hm => exact h.pumpMove hpc hm
  | dispatch hc hh hi => exact h.dispatch hh _ _
  | callback hc hm => exact h.callbackMove hc hm

end Threads

/-! ### The number of received buffers -/

/-- What consumer thread `t` relies on at a program point: it owns the mutex, and there is a
received buffer from its last test on until it releases it. -/
def Engine.ConsumerOk (s : Engine) (t : ℕ) : ConsumerPc → Prop
  | .outer _ | .inner _ | .finish | .unlock => s.mutex = some t
  | .check false => s.mutex = some t ∧ (s.stream.queue.receivedBufferCount = 0 →
      s.stream.streaming = false ∨ s.stream.stopRequested = true)
  | .check true => s.mutex = some t ∧
      (s.stream.queue.receivedBufferCount = 0 → s.stream.stopRequested = true)
  | .take => s.mutex = some t ∧ s.stream.queue.receivedBufferCount ≠ 0
  | .process .. | .halt .. | .release .. => s.stream.queue.receivedBufferCount ≠ 0
  | .lock | .wait | .relock | .done => True

/-- The invariant of the number of received buffers. -/
structure Counted (s : Engine) : Prop where
  nonneg : 0 ≤ s.stream.queue.receivedBufferCount
  le : s.stream.queue.receivedBufferCount ≤ rawBufferCount
  consumer : ∀ t pc, s.stream.consumers[t]? = some pc → s.ConsumerOk t pc

namespace Counted

open Engine

variable {s s' : Engine}

theorem initial : Counted .initial := ⟨le_rfl, by decide, nofun⟩

theorem consumerOk_mono {t : ℕ} {pc : ConsumerPc} (hm : s'.mutex = s.mutex)
    (hc : s'.stream.queue.receivedBufferCount = 0 → s.stream.queue.receivedBufferCount = 0)
    (hst : s.stream.streaming = false → s'.stream.streaming = false)
    (hsr : s.stream.stopRequested = true → s'.stream.stopRequested = true)
    (h : s.ConsumerOk t pc) : s'.ConsumerOk t pc := by
  cases pc with
  | outer | inner | finish | unlock => exact hm.trans h
  | check half =>
    cases half with
    | false => exact ⟨hm.trans h.1, fun hz => (h.2 (hc hz)).imp hst hsr⟩
    | true => exact ⟨hm.trans h.1, fun hz => hsr (h.2 (hc hz))⟩
  | take => exact ⟨hm.trans h.1, mt hc h.2⟩
  | process | halt | release => exact mt hc h
  | lock | wait | relock | done => trivial

theorem mono (h : Counted s) (hcs : s'.stream.consumers = s.stream.consumers)
    (hm : s'.mutex = s.mutex)
    (hn : s'.stream.queue.receivedBufferCount = s.stream.queue.receivedBufferCount)
    (hst : s.stream.streaming = false → s'.stream.streaming = false)
    (hsr : s.stream.stopRequested = true → s'.stream.stopRequested = true) : Counted s' where
  nonneg := hn ▸ h.nonneg
  le := hn ▸ h.le
  consumer t pc ht :=
    consumerOk_mono hm (fun hz => hn ▸ hz) hst hsr (h.consumer t pc (hcs ▸ ht))

theorem of_consumersDone (hd : AllDone .done s.stream.consumers)
    (h₀ : 0 ≤ s.stream.queue.receivedBufferCount)
    (h₈ : s.stream.queue.receivedBufferCount ≤ rawBufferCount) : Counted s where
  nonneg := h₀
  le := h₈
  consumer t pc ht := by
    obtain rfl := hd pc (List.mem_of_getElem? ht)
    trivial

theorem kill (h : Counted s) (happ : s.app = .kill) (hq : ∀ ok, s.NoStaleTest (.app ok)) :
    Counted (s.appTo s.stream.clearStop .halt) where
  nonneg := h.nonneg
  le := h.le
  consumer t pc ht := by
    have hok := h.consumer t pc ht
    have hstale := hq true happ pc (List.mem_of_getElem? ht)
    -- only the second test relied on the request that is cleared here
    cases pc with
    | check half =>
      cases half with
      | false => exact ⟨hok.1, fun hz => absurd hz (hstale (.inl rfl))⟩
      | true => exact ⟨hok.1, fun hz => absurd hz (hstale (.inr rfl))⟩
    | _ => exact hok

theorem createConsumer (h : Counted s) : Counted (s.appTo s.stream.createConsumer .createTransfer)
    where
  nonneg := h.nonneg
  le := h.le
  consumer t pc ht := by
    change (s.stream.consumers ++ [.lock])[t]? = some pc at ht
    rcases Nat.lt_or_ge t s.stream.consumers.length with hlt | hge
    · rw [List.getElem?_append_left hlt] at ht
      exact consumerOk_mono rfl id id id (h.consumer t pc ht)
    · rw [List.getElem?_append_right hge] at ht
      obtain rfl := List.mem_singleton.1 (List.mem_of_getElem? ht)
      trivial

theorem app {ok : Bool} (h : Counted s) (ht : Threads s) (hm : s.AppMoves s')
    (hq : s.StartsQuietly (.app ok)) (hn : s.NoStaleTest (.app ok)) : Counted s' := by
  cases hm with
  | accept happ hs =>
    rw [StartsQuietly, happ] at hq
    exact of_consumersDone (hq hs).1 h.nonneg h.le
  | reset happ =>
    exact of_consumersDone (ht.consumersDone (happ ▸ trivial)) le_rfl (Int.natCast_nonneg _)
  | createConsumer happ => exact h.createConsumer
  | kill happ => exact h.kill happ fun _ => hn
  | cancel happ hi =>
    obtain ⟨status, he⟩ := s.stream.cancelTransfer_eq ⟨_, hi⟩
    rw [he]
    exact h.mono rfl rfl rfl id id
  | halt happ => exact h.mono rfl rfl rfl (fun _ => rfl) id
  | _ => exact h.mono rfl rfl rfl id id

/-- Moving the only consumer thread that runs. -/
theorem consumerTo (ht : Threads s) {t : ℕ} {pc pc' : ConsumerPc}
    {stream : Stream} {mutex : Option ℕ} (hpc : s.stream.consumers[t]? = some pc)
    (hne : pc ≠ .done) (hcs : stream.consumers = s.stream.consumers)
    (h₀ : 0 ≤ stream.queue.receivedBufferCount)
    (h₈ : stream.queue.receivedBufferCount ≤ rawBufferCount)
    (hok : (s.consumerTo t stream mutex pc').ConsumerOk t pc') :
    Counted (s.consumerTo t stream mutex pc') where
  nonneg := h₀
  le := h₈
  consumer t' pc'' ht' := by
    change (stream.consumers.set t pc')[t']? = some pc'' at ht'
    rw [hcs] at ht'
    -- every other consumer thread has exited and relies on nothing
    by_cases he : t = t'
    · obtain rfl := he
      rw [List.getElem?_set_self (List.getElem?_eq_some_iff.1 hpc).1] at ht'
      exact Option.some.inj ht' ▸ hok
    · rw [List.getElem?_set_ne he] at ht'
      rw [ht.consumer.atMostOne.eq_done_of_ne hpc hne ht' he]
      trivial

theorem consumerMove (h : Counted s) (ht : Threads s) {t : ℕ} {pc : ConsumerPc}
    (hpc : s.stream.consumers[t]? = some pc) (hm : s.ConsumerMoves t pc s') : Counted s' := by
  have hok := h.consumer t pc hpc
  have hne := hm.frame.1
  have h₀ := h.nonneg
  have h₈ := h.le
  cases hm with
  | lock | relock => exact consumerTo ht hpc hne rfl h₀ h₈ rfl
  | wake | unlock | innerWait => exact consumerTo ht hpc hne rfl h₀ h₈ trivial
  | outerStreaming | outerEnter | innerStreaming =>
    exact consumerTo ht hpc hne rfl h₀ h₈ hok
  | @outerLeave half => exact consumerTo ht hpc hne rfl h₀ h₈ hok
  | innerLeave hs => exact consumerTo ht hpc hne rfl h₀ h₈ ⟨hok, fun hz => .inl (hs hz)⟩
  | innerStop hs => exact consumerTo ht hpc hne rfl h₀ h₈ ⟨hok, fun _ => .inr hs⟩
  | checkStreaming hs =>
    refine consumerTo ht hpc hne rfl h₀ h₈ ⟨hok.1, fun hz => (hok.2 hz).resolve_left ?_⟩
    exact fun hf => absurd (hs.symm.trans hf) nofun
  | checkTake hs =>
    refine consumerTo ht hpc hne rfl h₀ h₈ ⟨hok.1, ?_⟩
    intro hz
    exact absurd (hs.symm.trans (hok.2 hz)) nofun
  | @checkLeave half =>
    cases half <;> exact consumerTo ht hpc hne rfl h₀ h₈ hok.1
  | take => exact consumerTo ht hpc hne rfl h₀ h₈ hok.2
  | goOn | giveUp | halt => exact consumerTo ht hpc hne rfl h₀ h₈ hok
  | release hmutex =>
    have hpos : s.stream.queue.receivedBufferCount ≠ 0 := hok
    refine consumerTo ht hpc hne rfl ?_ ?_ rfl
    · show 0 ≤ s.stream.queue.receivedBufferCount - 1
      omega
    · show s.stream.queue.receivedBufferCount - 1 ≤ _
      omega
  | finish => exact consumerTo ht hpc hne rfl h₀ h₈ hok

theorem receive (h : Counted s) (hd : Handler) (i : Fin transferCount) :
    Counted { s with
      stream := { s.stream with queue := s.stream.queue.receive i }
      callback := some (hd, .submit i) } := by
  have h₀ := h.nonneg
  have h₈ := h.le
  have hcount := s.stream.queue.receivedBufferCount_receive i
  refine ⟨?_, ?_, fun t pc ht => consumerOk_mono (s := s) rfl ?_ id id (h.consumer t pc ht)⟩ <;>
    simp only <;> omega

theorem callbackMove (h : Counted s) {hd : Handler} {pc : CallbackPc}
    (hm : s.CallbackMoves hd pc s') : Counted s' := by
  cases hm with
  | receive => exact h.receive hd _
  | fail => exact h.mono rfl rfl rfl (fun _ => rfl) id
  | _ => exact h.mono rfl rfl rfl id id

theorem pumpMove (h : Counted s) {t : ℕ} {pc : PumpPc} (hm : s.PumpMoves t pc s') :
    Counted s' := by
  cases hm with
  | halt | finish => exact h.mono rfl rfl rfl (fun _ => rfl) id
  | _ => exact h.mono rfl rfl rfl id id

/-- **One step** keeps the invariant under both conditions. -/
theorem step {l : EngineStep} (h : Counted s) (ht : Threads s) (hq : s.StartsQuietly l)
    (hn : s.NoStaleTest l) (hs : machine.step s l = some s') : Counted s' := by
  cases moves_of_step hs with
  | callStart => exact h.mono rfl rfl rfl id id
  | callStop => exact h.mono rfl rfl rfl id fun _ => rfl
  | app hm => exact h.app ht hm hq hn
  | consumer hpc hm => exact h.consumerMove ht hpc hm
  | pump hpc hm => exact h.pumpMove hm
  | dispatch => exact h.mono rfl rfl rfl id id
  | callback hc hm => exact h.callbackMove hm

end Counted

/-! ### Runs -/

namespace Engine

/-- The two conditions on a step. -/
def Orderly (s : Engine) (l : EngineStep) : Prop := s.StartsQuietly l ∧ s.NoStaleTest l

instance (s : Engine) (l : EngineStep) : Decidable (s.Orderly l) :=
  inferInstanceAs (Decidable (_ ∧ _))

/-- **A device has one set of threads.**  In every run whose starts are admitted when the earlier
threads have exited, and whose stops clear the request away from the second test of the consumer,
at most one consumer thread and at most one transfer thread have not exited, the number of received
buffers is that of a ring, and no thread is left when a stop returns. -/
theorem orderly_threads {steps : List EngineStep} {s : Engine}
    (ho : machine.Meets Orderly initial steps) (hs : machine.run initial steps = some s) :
    AtMostOne .done s.stream.consumers ∧ AtMostOne .done s.stream.pumps ∧
      (0 ≤ s.stream.queue.receivedBufferCount ∧
        s.stream.queue.receivedBufferCount ≤ rawBufferCount) ∧
      (s.app = .idle true →
        AllDone .done s.stream.consumers ∧ AllDone .done s.stream.pumps) := by
  obtain ⟨ht, hc⟩ := ho.invariant (I := fun s => Threads s ∧ Counted s)
    (fun _ _ _ ⟨ht, hc⟩ ⟨hq, hn⟩ hst => ⟨ht.step hq hst, hc.step ht hq hn hst⟩)
    ⟨.initial, .initial⟩ hs
  exact ⟨ht.consumer.atMostOne, ht.pump.atMostOne, ⟨hc.nonneg, hc.le⟩,
    fun happ => ⟨ht.consumersDone (happ ▸ trivial), ht.pumpsDone (happ ▸ trivial)⟩⟩

/-- A start in which everything succeeds. -/
def startSteps : List EngineStep :=
  .callStart 1 1 :: List.replicate (8 + 2 * transferCount) (.app true)

/-- The consumer thread goes to sleep, and the transfer thread handles events. -/
def settleSteps : List EngineStep :=
  List.replicate 5 (.consumer 0 false) ++ List.replicate 2 (.pump 0 false)

/-- The end of a stop: it wakes the consumer and waits for the threads. -/
def joinSteps : List EngineStep :=
  [.app true] ++ List.replicate 3 (.pump 0 false) ++ [.app true] ++
    List.replicate 6 (.consumer 0 false) ++ List.replicate 2 (.app true)

/-- A stop in which no callback is delivered. -/
def stopSteps : List EngineStep :=
  .callStop :: List.replicate (21 + 2 * transferCount) (.app true) ++ joinSteps

/-- A session that is stopped leaves no thread. -/
theorem stopSteps_orderly : ∃ s, machine.run initial (startSteps ++ settleSteps ++ stopSteps) =
    some s ∧ AllDone .done s.stream.consumers ∧ AllDone .done s.stream.pumps := by
  have hrun : (machine.run initial (startSteps ++ settleSteps ++ stopSteps)).map (fun s => s.app) =
      some (.idle true) := by decide +kernel
  obtain ⟨s, hs, happ⟩ := Option.map_eq_some_iff.1 hrun
  exact ⟨s, hs, (orderly_threads (by decide +kernel) hs).2.2.2 happ⟩

/-- The first transfer fails, the others complete, and the application starts again. -/
def restartSteps : List EngineStep :=
  [.dispatch (.pump 0) 0 false] ++ List.replicate 4 (.callback true) ++
    (List.finRange transferCount).tail.flatMap (fun i =>
      [.dispatch (.pump 0) i true, .callback true, .callback true]) ++ startSteps

/-- A stop that clears its request between the two tests of the consumer. -/
def staleSteps : List EngineStep :=
  List.replicate 4 (.consumer 0 false) ++ [.callStop, .app true, .consumer 0 false, .app true] ++
    List.replicate 5 (.consumer 0 false)

/-- A session that a failing transfer ended can be followed by another one although none of its
threads has exited; and a consumer can take a slot of an empty ring. -/
theorem restart_disorderly :
    (∃ s, machine.run initial (startSteps ++ settleSteps ++ restartSteps) = some s ∧
      ¬ AtMostOne .done s.stream.consumers ∧ ¬ AtMostOne .done s.stream.pumps) ∧
    ∃ s, machine.run initial (startSteps ++ staleSteps) = some s ∧
      s.stream.queue.receivedBufferCount = -1 := by
  have hrun : (machine.run initial (startSteps ++ settleSteps ++ restartSteps)).map
      (fun s => (s.stream.consumers, s.stream.pumps)) =
        some ([.wait, .lock], [.handling, .loop false]) := by decide +kernel
  have hstale : (machine.run initial (startSteps ++ staleSteps)).map
      (fun s => s.stream.queue.receivedBufferCount) = some (-1) := by decide +kernel
  obtain ⟨s, hs, hthreads⟩ := Option.map_eq_some_iff.1 hrun
  obtain ⟨hconsumers, hpumps⟩ := Prod.mk.inj hthreads
  refine ⟨⟨s, hs, ?_, ?_⟩, Option.map_eq_some_iff.1 hstale⟩
  · rw [hconsumers]
    exact fun h => absurd (h 0 1 _ _ rfl rfl nofun nofun) (by decide)
  · rw [hpumps]
    exact fun h => absurd (h 0 1 _ _ rfl rfl nofun nofun) (by decide)

end Engine

end AirspyHF
