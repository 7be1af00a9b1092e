import AirspyHF.Stream.Threads

/-!
# No wake-up is lost

The engine takes every critical section of the consumer's mutex in one step, except those of the
consumer itself.  A *monitor* is an engine in which the remaining ones have steps of their own:

* the consumer tests `stop_requested` for the last time, and then waits;
* the callback locks the mutex, queues or drops the buffer, signals the consumer and unlocks;
* the stop locks the mutex, signals the consumer and unlocks.

A signal is no longer without effect: it wakes a thread that waits, if there is one.  A monitor
refines the engine (`Monitor.refines_engine`), so that everything that holds of the engine holds of
it.

If no consumer thread is started while another one runs, a consumer sleeps while streaming only
over an empty ring or with a signal on its way, and never while a stop waits for it to exit
(`Monitor.no_lost_wakeup`).
-/

namespace AirspyHF

/-- A critical section that the engine takes in one step. -/
inductive Section where
  /-- Consumer thread `t` has made its last test and is about to wait. -/
  | consumerWait (t : ℕ)
  /-- The callback owns the mutex and is about to queue or drop the buffer. -/
  | callbackEnqueue
  /-- The callback has queued the buffer and is about to signal the consumer. -/
  | callbackSignal
  /-- The callback is about to unlock the mutex. -/
  | callbackUnlock
  /-- The stop owns the mutex and is about to signal the consumer. -/
  | appSignal
  /-- The stop is about to unlock the mutex. -/
  | appUnlock
  deriving DecidableEq, Repr

/-- The thread is about to lock the mutex. -/
def ConsumerPc.Locks : ConsumerPc → Prop
  | .lock | .relock | .release .. => True
  | _ => False

instance : DecidablePred ConsumerPc.Locks
  | .lock | .relock | .release .. => isTrue trivial
  | .outer _ | .inner _ | .wait | .check _ | .take | .process .. | .halt .. | .finish | .unlock
  | .done => isFalse id

/-- The callback is about to lock the mutex. -/
def CallbackPc.Locks : CallbackPc → Prop
  | .lock _ => True
  | _ => False

instance : DecidablePred CallbackPc.Locks
  | .lock _ => isTrue trivial
  | .account .. | .test .. | .submit _ | .countUp | .fail => isFalse id

/-- An engine, and the critical section that a thread is in. -/
structure Monitor where
  engine : Engine
  owner : Option Section

/-- The steps of a monitor. -/
inductive MonitorStep where
  /-- A step of the engine that is no critical section. -/
  | engine (l : EngineStep)
  /-- Consumer thread `t` tests `stop_requested` in its inner loop. -/
  | consumerTest (t : ℕ)
  /-- Consumer thread `t` unlocks the mutex and blocks, in one step. -/
  | consumerWait (t : ℕ)
  | callbackLock
  | callbackEnqueue
  /-- The callback signals the consumer; the thread that wakes up, if one waits. -/
  | callbackSignal (woken : Option ℕ)
  | callbackUnlock
  | appLock
  /-- The stop signals the consumer; the thread that wakes up, if one waits. -/
  | appSignal (woken : Option ℕ)
  | appUnlock
  deriving DecidableEq, Repr

/-- No received buffer is in the ring. -/
def Engine.NoBuffer (s : Engine) : Prop := s.stream.queue.receivedBufferCount = 0

instance (s : Engine) : Decidable s.NoBuffer := inferInstanceAs (Decidable (_ = _))

/-- `pthread_cond_signal`: a thread that waits wakes up, if there is one. -/
def Engine.signal (s : Engine) : Option ℕ → Option Engine
  | some t =>
    if s.stream.consumers[t]? = some .wait then machine.step s (.consumer t false) else none
  | none => if .wait ∈ s.stream.consumers then none else some s

namespace Monitor

/-- The monitor of an opened device. -/
def initial : Monitor := ⟨.initial, none⟩

variable (m : Monitor)

/-- The callback is in its critical section. -/
def InCallback : Prop :=
  m.owner = some .callbackEnqueue ∨ m.owner = some .callbackSignal ∨ m.owner = some .callbackUnlock

instance : Decidable m.InCallback := inferInstanceAs (Decidable (_ ∨ _ ∨ _))

/-- The step of the engine is no critical section, and the thread is in none. -/
def Allows : EngineStep → Prop
  | .app _ => m.engine.app ≠ .signal
  | .consumer t _ =>
    m.engine.stream.consumers[t]? ≠ some (.inner true) ∧ m.owner ≠ some (.consumerWait t) ∧
      ∀ pc ∈ m.engine.stream.consumers[t]?, pc.Locks → m.owner = none
  | .callback _ => ¬ m.InCallback ∧ ∀ c ∈ m.engine.callback, ¬ c.2.Locks
  | .callStart .. | .callStop | .pump .. | .dispatch .. => True

instance : DecidablePred m.Allows
  | .app _ => inferInstanceAs (Decidable (_ ≠ _))
  | .consumer .. => inferInstanceAs (Decidable (_ ≠ _ ∧ _ ≠ _ ∧ ∀ pc ∈ _, _ → _))
  | .callback _ => inferInstanceAs (Decidable (¬ _ ∧ ∀ c ∈ _, ¬ _))
  | .callStart .. | .callStop | .pump .. | .dispatch .. => isTrue trivial

/-- One step of a monitor. -/
def step : MonitorStep → Option Monitor
  | .engine l =>
    if m.Allows l then (Engine.machine.step m.engine l).map fun e => ⟨e, m.owner⟩ else none
  | .consumerTest t =>
    if m.engine.stream.consumers[t]? = some (.inner true) then
      (Engine.machine.step m.engine (.consumer t false)).map fun e =>
        ⟨e, if m.engine.stream.stopRequested then none else some (.consumerWait t)⟩
    else none
  | .consumerWait t =>
    if m.owner = some (.consumerWait t) then some { m with owner := none } else none
  | .callbackLock =>
    if m.engine.mutex = none ∧ m.owner = none ∧ ∃ c ∈ m.engine.callback, c.2.Locks then
      some { m with owner := some .callbackEnqueue }
    else none
  -- the consumer is signalled only if the buffer was queued
  | .callbackEnqueue =>
    if m.owner = some .callbackEnqueue then
      (Engine.machine.step m.engine (.callback true)).map fun e =>
        ⟨e, if m.engine.stream.queue.HasRoom then some .callbackSignal else some .callbackUnlock⟩
    else none
  | .callbackSignal woken =>
    if m.owner = some .callbackSignal then
      (m.engine.signal woken).map fun e => ⟨e, some .callbackUnlock⟩
    else none
  | .callbackUnlock =>
    if m.owner = some .callbackUnlock then some { m with owner := none } else none
  | .appLock =>
    if m.engine.mutex = none ∧ m.owner = none ∧ m.engine.app = .signal then
      some { m with owner := some .appSignal }
    else none
  | .appSignal woken =>
    if m.owner = some .appSignal then
      (m.engine.signal woken).map fun e => ⟨e, some .appUnlock⟩
    else none
  | .appUnlock =>
    if m.owner = some .appUnlock then
      (Engine.machine.step m.engine (.app true)).map fun e => ⟨e, none⟩
    else none

/-- The machine of a monitor. -/
def machine : Machine Monitor MonitorStep := ⟨step⟩

/-- Consumer thread `t` is blocked on the condition variable. -/
def Blocked (t : ℕ) : Prop :=
  m.engine.stream.consumers[t]? = some .wait ∧ m.owner ≠ some (.consumerWait t)

/-! ### The invariant -/

/-- What consumer thread `t` relies on at a program point: it owns the mutex while it tests and
takes, and the ring is empty from its test of the count on until a callback signals it. -/
def ConsumerOk (t : ℕ) : ConsumerPc → Prop
  | .outer _ | .inner false | .check _ | .take | .finish | .unlock => m.engine.mutex = some t
  | .inner true => m.engine.mutex = some t ∧ m.engine.NoBuffer
  | .wait => m.engine.NoBuffer ∨ m.owner = some .callbackSignal
  | .lock | .relock | .process .. | .halt .. | .release .. | .done => True

/-- The stop has signalled the consumer and not joined it. -/
def Signalled : Prop :=
  m.owner = some .appUnlock ∨ m.engine.app = .joinTransfer ∨ m.engine.app = .joinConsumer

end Monitor

/-- A stop has cleared `streaming` and not joined the consumer. -/
def AppPc.Halted : AppPc → Prop
  | .cancel _ | .drain _ | .poll _ | .signal | .joinTransfer | .joinConsumer => True
  | _ => False

/-- The invariant of a monitor. -/
structure Wakeful (m : Monitor) : Prop where
  mutex : m.owner ≠ none → m.engine.mutex = none
  app : m.owner = some .appSignal ∨ m.owner = some .appUnlock → m.engine.app = .signal
  consumer : ∀ t pc, m.engine.stream.consumers[t]? = some pc → m.ConsumerOk t pc
  halted : m.engine.app.Halted → m.engine.stream.streaming = false
  /-- After the signal of a stop no consumer waits or is about to. -/
  awake : m.Signalled → ∀ pc ∈ m.engine.stream.consumers, pc ≠ .wait ∧ pc ≠ .inner true

namespace Wakeful

open Engine Monitor

variable {m : Monitor} {e : Engine}

theorem initial : Wakeful .initial where
  mutex := nofun
  app := nofun
  consumer := nofun
  halted := nofun
  awake := nofun

theorem consumerOk_mono {m' : Monitor} {t : ℕ} {pc : ConsumerPc} (h : m.ConsumerOk t pc)
    (hm : m'.engine.mutex = m.engine.mutex)
    (hw : pc = .wait → m.engine.NoBuffer ∨ m.owner = some .callbackSignal →
      m'.engine.NoBuffer ∨ m'.owner = some .callbackSignal)
    (hn : m.engine.mutex = some t → m.engine.NoBuffer → m'.engine.NoBuffer) :
    m'.ConsumerOk t pc := by
  cases pc with
  | outer | check | take | finish | unlock => exact hm.trans h
  | inner half =>
    cases half
    · exact hm.trans h
    · exact ⟨hm.trans h.1, hn h.1 h.2⟩
  | wait => exact hw rfl h
  | lock | relock | process | halt | release | done => trivial

/-- A step that leaves the consumers and the mutex alone; a ring over which a consumer waits is
filled only with a signal on its way. -/
theorem update (h : Wakeful m) {o : Option Section}
    (hc : e.stream.consumers = m.engine.stream.consumers) (hm : e.mutex = m.engine.mutex)
    (ho : o ≠ none → m.engine.mutex = none)
    (hw : m.engine.NoBuffer ∨ m.owner = some .callbackSignal →
      e.NoBuffer ∨ o = some .callbackSignal)
    (hn : m.engine.mutex ≠ none → m.engine.NoBuffer → e.NoBuffer)
    (ha : o = some .appSignal ∨ o = some .appUnlock → e.app = .signal)
    (hh : e.app.Halted → e.stream.streaming = false)
    (hs : Signalled ⟨e, o⟩ → m.Signalled) : Wakeful ⟨e, o⟩ where
  mutex hne := hm.trans (ho hne)
  app := ha
  consumer t pc ht :=
    consumerOk_mono (h.consumer t pc (hc ▸ ht)) hm (fun _ => hw) fun hown => hn (by simp [hown])
  halted := hh
  awake hsig := hc ▸ h.awake (hs hsig)

theorem keep (h : Wakeful m) (hc : e.stream.consumers = m.engine.stream.consumers)
    (hm : e.mutex = m.engine.mutex) (hn : m.engine.NoBuffer → e.NoBuffer)
    (ha : m.owner = some .appSignal ∨ m.owner = some .appUnlock → e.app = .signal)
    (hh : e.app.Halted → e.stream.streaming = false)
    (hs : Signalled ⟨e, m.owner⟩ → m.Signalled) : Wakeful ⟨e, m.owner⟩ :=
  h.update hc hm h.mutex (Or.imp_left hn) (fun _ => hn) ha hh hs

theorem own (h : Wakeful m) {o : Option Section} (hs : m.owner ≠ some .callbackSignal)
    (hm : o ≠ none → m.engine.mutex = none) (ha : o = some .appSignal → m.engine.app = .signal)
    (hu : o ≠ some .appUnlock) : Wakeful { m with owner := o } :=
  h.update rfl rfl hm (fun hn => .inl (hn.resolve_right hs)) (fun _ => id)
    (fun ho => ho.elim ha fun ho => absurd ho hu) h.halted
    fun hsig => hsig.imp_left fun ho => absurd ho hu

/-! #### The consumer -/

/-- The only consumer thread that runs moves on. -/
theorem consumerTo (h : Wakeful m) (hone : AtMostOne .done m.engine.stream.consumers) {t : ℕ}
    {pc pc' : ConsumerPc} {stream : Stream} {mutex : Option ℕ} {o : Option Section}
    (ht : m.engine.stream.consumers[t]? = some pc) (hne : pc ≠ .done)
    (hc : stream.consumers = m.engine.stream.consumers)
    (hst : stream.streaming = true → m.engine.stream.streaming = true)
    (hm : o ≠ none → mutex = none)
    (ha : o = some .appSignal ∨ o = some .appUnlock → m.engine.app = .signal)
    (hok : ConsumerOk ⟨m.engine.consumerTo t stream mutex pc', o⟩ t pc')
    (hs : Signalled ⟨m.engine.consumerTo t stream mutex pc', o⟩ → pc' ≠ .wait ∧ pc' ≠ .inner true) :
    Wakeful ⟨m.engine.consumerTo t stream mutex pc', o⟩ where
  mutex := hm
  app := ha
  consumer := by
    rw [Engine.consumerTo, Stream.moveConsumer, hc]
    exact hone.forall_set ht hne (fun _ => trivial) hok
  halted happ := Bool.eq_false_iff.2 fun hstr =>
    Bool.eq_false_iff.1 (h.halted happ) (hst hstr)
  awake hsig pc'' hpc := by
    obtain ⟨t', ht'⟩ := List.mem_iff_getElem?.1 hpc
    rw [Engine.consumerTo, Stream.moveConsumer, hc] at ht'
    exact hone.forall_set (P := fun _ pc => pc ≠ .wait ∧ pc ≠ .inner true) ht hne
      (fun _ => ⟨nofun, nofun⟩) (hs hsig) t' pc'' ht'

theorem inner_of_step {t : ℕ} {ret : Bool}
    (hs : m.engine.consumerStep t ret (.inner false) = some e) :
    e = m.engine.consumerTo t m.engine.stream m.engine.mutex (.check false) ∨
      m.engine.NoBuffer ∧ m.engine.stream.streaming = true ∧
        e = m.engine.consumerTo t m.engine.stream m.engine.mutex (.inner true) := by
  rw [consumerStep, Option.some_inj] at hs
  split at hs
  · rename_i hwaits
    exact .inr ⟨hwaits.1, hwaits.2, hs.symm⟩
  · exact .inl hs.symm

theorem streaming_of_signalled (h : Wakeful m) (hs : m.Signalled) :
    m.engine.stream.streaming = false := by
  refine h.halted ?_
  rcases hs with ho | happ | happ
  · rw [h.app (.inr ho)]
    trivial
  · rw [happ]
    trivial
  · rw [happ]
    trivial

/-- A consumer moves outside the steps that are split. -/
theorem consumerStep (h : Wakeful m) (hone : AtMostOne .done m.engine.stream.consumers) {t : ℕ}
    {ret : Bool} {pc : ConsumerPc} (hpc : m.engine.stream.consumers[t]? = some pc)
    (hne : pc ≠ .inner true) (hl : pc.Locks → m.owner = none)
    (hs : m.engine.consumerStep t ret pc = some e) : Wakeful ⟨e, m.owner⟩ := by
  have hok := h.consumer t pc hpc
  by_cases hinner : pc = .inner false
  · subst hinner
    rcases inner_of_step hs with rfl | ⟨hn, hst, rfl⟩
    · exact h.consumerTo hone hpc nofun rfl id h.mutex h.app hok fun _ => ⟨nofun, nofun⟩
    · refine h.consumerTo hone hpc nofun rfl id h.mutex h.app ⟨hok, hn⟩ ?_
      intro hsig
      exact absurd hst (Bool.eq_false_iff.1 (h.streaming_of_signalled hsig))
  cases consumerMoves_of_step hs with
  | innerStreaming | innerLeave => exact absurd rfl hinner
  | lock hm | relock hm | release hm =>
    exact h.consumerTo hone hpc nofun rfl id (fun ho => absurd (hl trivial) ho) h.app rfl
      fun _ => ⟨nofun, nofun⟩
  | outerStreaming | outerEnter | outerLeave | checkStreaming | checkTake | checkLeave =>
    exact h.consumerTo hone hpc nofun rfl id h.mutex h.app hok fun _ => ⟨nofun, nofun⟩
  | wake | goOn | giveUp =>
    exact h.consumerTo hone hpc nofun rfl id h.mutex h.app trivial fun _ => ⟨nofun, nofun⟩
  | innerStop | innerWait => exact absurd rfl hne
  | take | unlock =>
    exact h.consumerTo hone hpc nofun rfl id (fun _ => rfl) h.app trivial fun _ => ⟨nofun, nofun⟩
  | halt | finish =>
    exact h.consumerTo hone hpc nofun rfl nofun h.mutex h.app hok fun _ => ⟨nofun, nofun⟩

theorem consumerTest (h : Wakeful m) (hone : AtMostOne .done m.engine.stream.consumers) {t : ℕ}
    (hpc : m.engine.stream.consumers[t]? = some (.inner true))
    (hs : m.engine.consumerStep t false (.inner true) = some e) :
    Wakeful ⟨e, if m.engine.stream.stopRequested then none else some (.consumerWait t)⟩ := by
  obtain ⟨hm, hn⟩ := h.consumer t _ hpc
  have hsig : ¬ m.Signalled := fun hsig => (h.awake hsig _ (List.mem_of_getElem? hpc)).2 rfl
  rw [Engine.consumerStep, Option.some_inj] at hs
  subst hs
  split
  · exact h.consumerTo hone hpc nofun rfl id (fun ho => absurd rfl ho) (by simp) hm
      fun _ => ⟨nofun, nofun⟩
  · refine h.consumerTo hone hpc nofun rfl id (fun _ => rfl) (by simp) (.inl hn) ?_
    intro hsig'
    exact absurd (hsig'.resolve_left (by simp)) fun hs => hsig (.inr hs)

/-- What a signal does: no consumer is left waiting, and nothing else changes. -/
theorem signal_spec {s : Engine} (hone : AtMostOne .done s.stream.consumers) {woken : Option ℕ}
    (hs : s.signal woken = some e) :
    (∃ consumers, e = { s with stream := { s.stream with consumers := consumers } }) ∧
      (∀ pc ∈ e.stream.consumers, pc ≠ .wait) ∧
      ∀ (t : ℕ) (pc : ConsumerPc), e.stream.consumers[t]? = some pc →
        pc = .relock ∨ s.stream.consumers[t]? = some pc := by
  cases woken with
  | none =>
    obtain ⟨hno, he⟩ := Option.ite_none_left_eq_some.1 hs
    obtain rfl := Option.some.inj he
    exact ⟨⟨_, rfl⟩, fun pc hpc hw => hno (hw ▸ hpc), fun t pc ht => .inr ht⟩
  | some t =>
    obtain ⟨ht, he⟩ := Option.ite_none_right_eq_some.1 hs
    obtain ⟨pc, hpc, hstep⟩ := Option.bind_eq_some_iff.1 he
    obtain rfl := Option.some.inj (ht.symm.trans hpc)
    obtain rfl := Option.some.inj hstep
    refine ⟨⟨_, rfl⟩, fun pc hpc => ?_, ?_⟩
    · obtain ⟨t', ht'⟩ := List.mem_iff_getElem?.1 hpc
      have hmoved : ConsumerPc.relock ≠ .wait := nofun
      exact hone.forall_set (P := fun _ pc => pc ≠ .wait) ht nofun (fun _ => nofun) hmoved t' pc ht'
    · intro t' pc ht'
      by_cases he : t = t'
      · subst he
        have hself := ht'
        rw [Engine.consumerTo, Stream.moveConsumer,
          List.getElem?_set_self (List.getElem?_eq_some_iff.1 ht).1] at hself
        exact .inl (Option.some.inj hself).symm
      · rw [Engine.consumerTo, Stream.moveConsumer, List.getElem?_set_ne he] at ht'
        exact .inr ht'

/-- **A signal**, from a thread that owns the mutex, leaves no consumer waiting. -/
theorem signal (h : Wakeful m) (hone : AtMostOne .done m.engine.stream.consumers)
    {woken : Option ℕ} {o : Section} (ho : m.owner ≠ none)
    (ha : some o = some .appSignal ∨ some o = some .appUnlock → m.engine.app = .signal)
    (hs : m.engine.signal woken = some e) : Wakeful ⟨e, some o⟩ := by
  obtain ⟨⟨consumers, he⟩, hawake, hold⟩ := signal_spec hone hs
  have hnone : e.mutex = none := by
    rw [he]
    exact h.mutex ho
  have hok : ∀ t pc, e.stream.consumers[t]? = some pc → ConsumerOk ⟨e, some o⟩ t pc := by
    intro t pc ht
    rcases hold t pc ht with rfl | hpc
    · trivial
    · refine consumerOk_mono (h.consumer t pc hpc) (by rw [he])
        (fun hw => absurd hw (hawake pc (List.mem_of_getElem? ht))) fun hown => ?_
      exact absurd ((h.mutex ho).symm.trans hown) nofun
  have happ : e.app = m.engine.app := by rw [he]
  have hstreaming : e.stream.streaming = m.engine.stream.streaming := by rw [he]
  refine ⟨fun _ => hnone, fun ho => happ.trans (ha ho), hok,
    fun hh => hstreaming.trans (h.halted (happ ▸ hh)), fun _ pc hpc => ⟨hawake pc hpc, ?_⟩⟩
  rintro rfl
  obtain ⟨t, ht⟩ := List.mem_iff_getElem?.1 hpc
  exact absurd (hnone.symm.trans (hok t _ ht).1) nofun

/-! #### The other threads -/

theorem appTo (h : Wakeful m) (hsig : m.engine.app ≠ .signal) {stream : Stream} {pc : AppPc}
    (hc : stream.consumers = m.engine.stream.consumers)
    (hn : m.engine.NoBuffer → stream.queue.receivedBufferCount = 0)
    (hh : pc.Halted → stream.streaming = false)
    (hj : pc = .joinTransfer ∨ pc = .joinConsumer → m.engine.app = .joinTransfer) :
    Wakeful ⟨m.engine.appTo stream pc, m.owner⟩ :=
  h.keep hc rfl hn (fun ho => absurd (h.app ho) hsig) hh
    fun hs => hs.imp_right fun hpc => .inl (hj hpc)

theorem createConsumer (h : Wakeful m) (happ : m.engine.app = .createConsumer) :
    Wakeful ⟨m.engine.appTo m.engine.stream.createConsumer .createTransfer, m.owner⟩ := by
  have hno : m.owner ≠ some .appUnlock := fun ho => absurd (happ.symm.trans (h.app (.inr ho))) nofun
  refine ⟨h.mutex, fun ho => absurd (happ.symm.trans (h.app ho)) nofun, ?_, nofun,
    fun hs => ?_⟩
  · intro t pc ht
    rcases Nat.lt_or_ge t m.engine.stream.consumers.length with hlt | hge
    · have hold := (List.getElem?_append_left hlt).symm.trans ht
      exact consumerOk_mono (h.consumer t pc hold) rfl (fun _ => id) fun _ => id
    · obtain rfl := List.eq_of_mem_singleton (List.mem_of_getElem?
        ((List.getElem?_append_right hge).symm.trans ht))
      trivial
  · rcases hs with ho | hpc | hpc
    · exact absurd ho hno
    · exact absurd hpc nofun
    · exact absurd hpc nofun

theorem appMove (h : Wakeful m) (hsig : m.engine.app ≠ .signal) (hm : m.engine.AppMoves e) :
    Wakeful ⟨e, m.owner⟩ := by
  cases hm with
  | createConsumer happ => exact h.createConsumer happ
  | signal happ => exact absurd happ hsig
  | reset => exact h.appTo hsig rfl (fun _ => rfl) nofun nofun
  | halt => exact h.appTo hsig rfl id (fun _ => rfl) nofun
  | cancel happ hi =>
    obtain ⟨status, he⟩ := m.engine.stream.cancelTransfer_eq ⟨_, hi⟩
    rw [he]
    exact h.appTo hsig rfl id (fun _ => h.halted (happ ▸ trivial)) nofun
  | cancelDone happ | poll happ | pollReturn happ =>
    exact h.appTo hsig rfl id (fun _ => h.halted (happ ▸ trivial)) nofun
  | drained happ =>
    exact h.appTo hsig rfl id (fun _ => h.halted (happ ▸ trivial)) nofun
  | joinTransfer happ | skipTransfer happ =>
    exact h.appTo hsig rfl id (fun _ => h.halted (happ ▸ trivial)) fun _ => happ
  | offTaken | offRefused | onTaken | onRefused | testStreaming | testRefused | accept | submit
  | submitRefused | submitDone | counted | consumerRefused | createTransfer | transferRefused
  | stopOff | kill | killSkip | joinConsumer | skipConsumer | stopped =>
    exact h.appTo hsig rfl id nofun nofun

theorem pumpMove (h : Wakeful m) {t : ℕ} {pc : PumpPc} (hm : m.engine.PumpMoves t pc e) :
    Wakeful ⟨e, m.owner⟩ := by
  cases hm with
  | goOn | handled => exact h.keep rfl rfl id h.app h.halted id
  | halt | finish => exact h.keep rfl rfl id h.app (fun _ => rfl) id

theorem callbackMove (h : Wakeful m) {hd : Handler} {pc : CallbackPc} (hl : ¬ pc.Locks)
    (hm : m.engine.CallbackMoves hd pc e) : Wakeful ⟨e, m.owner⟩ := by
  cases hm with
  | receive => exact absurd trivial hl
  | fail => exact h.keep rfl rfl id h.app (fun _ => rfl) id
  | account | testStreaming | testHalted | testStopped | testReceive | testFail | submit
  | submitFail | countUp => exact h.keep rfl rfl id h.app h.halted id

/-- A step of the engine that is no critical section. -/
theorem engineStep (h : Wakeful m) (hone : AtMostOne .done m.engine.stream.consumers)
    {l : EngineStep} (ha : m.Allows l) (hs : Engine.machine.step m.engine l = some e) :
    Wakeful ⟨e, m.owner⟩ := by
  cases l with
  | consumer t ret =>
    obtain ⟨hinner, -, hl⟩ := ha
    obtain ⟨pc, hpc, hstep⟩ := Option.bind_eq_some_iff.1 hs
    exact h.consumerStep hone hpc (fun he => hinner (he ▸ hpc)) (hl pc hpc) hstep
  | callback ok =>
    obtain ⟨-, hl⟩ := ha
    obtain ⟨c, hc, hstep⟩ := Option.bind_eq_some_iff.1 hs
    exact h.callbackMove (hl c hc) (callbackMoves_of_step hstep)
  | app ok => exact h.appMove ha (appMoves_of_step hs)
  | callStart callback ctx =>
    cases moves_of_step hs with
    | callStart happ => exact h.appTo (happ ▸ nofun) rfl id nofun nofun
  | callStop =>
    cases moves_of_step hs with
    | callStop happ => exact h.appTo (happ ▸ nofun) rfl id nofun nofun
  | pump t fails =>
    cases moves_of_step hs with
    | pump hpc hm => exact h.pumpMove hm
  | dispatch hd i complete =>
    cases moves_of_step hs with
    | dispatch => exact h.keep rfl rfl id h.app h.halted id

/-- The callback moves while the mutex is locked; if a consumer waits, a signal follows. -/
theorem callbackLocked (h : Wakeful m) {hd : Handler} {pc : CallbackPc} {o : Option Section}
    (hnone : m.engine.mutex = none)
    (hsignal : m.engine.NoBuffer ∨ m.owner = some .callbackSignal → o = some .callbackSignal)
    (ha : o ≠ some .appSignal) (hu : o ≠ some .appUnlock) (hm : m.engine.CallbackMoves hd pc e) :
    Wakeful ⟨e, o⟩ := by
  have hnot : ¬ (o = some .appSignal ∨ o = some .appUnlock) := not_or.2 ⟨ha, hu⟩
  cases hm with
  | fail =>
    exact h.update rfl rfl (fun _ => hnone) (fun hn => .inr (hsignal hn))
      (fun hne => absurd hnone hne) (fun ho => absurd ho hnot) (fun _ => rfl)
      (Or.imp_left fun ho => absurd ho hu)
  | account | testStreaming | testHalted | testStopped | testReceive | testFail | receive | submit
  | submitFail | countUp =>
    exact h.update rfl rfl (fun _ => hnone) (fun hn => .inr (hsignal hn))
      (fun hne => absurd hnone hne) (fun ho => absurd ho hnot) h.halted
      (Or.imp_left fun ho => absurd ho hu)

theorem callbackEnqueue (h : Wakeful m) (ho : m.owner = some .callbackEnqueue)
    (hs : Engine.machine.step m.engine (.callback true) = some e) :
    Wakeful ⟨e, if m.engine.stream.queue.HasRoom then some .callbackSignal
      else some .callbackUnlock⟩ := by
  obtain ⟨c, hc, hstep⟩ := Option.bind_eq_some_iff.1 hs
  refine h.callbackLocked (h.mutex (ho ▸ nofun)) (fun hn => if_pos ?_) ?_ ?_
    (callbackMoves_of_step hstep)
  · have hzero : m.engine.NoBuffer := hn.resolve_right (ho ▸ nofun)
    rw [Queue.HasRoom, hzero]
    decide
  · split <;> exact nofun
  · split <;> exact nofun

theorem appUnlock (h : Wakeful m) (ho : m.owner = some .appUnlock)
    (hs : Engine.machine.step m.engine (.app true) = some e) : Wakeful ⟨e, none⟩ := by
  have happ := h.app (.inr ho)
  cases appMoves_of_step hs with
  | signal =>
    exact h.update rfl rfl (fun hne => absurd rfl hne)
      (fun hn => .inl (hn.resolve_right (ho ▸ nofun))) (fun _ => id) (by simp)
      (fun _ => h.halted (happ ▸ trivial)) fun _ => .inl ho
  | _ happ' => exact absurd (happ.symm.trans happ') nofun

/-- **One step** keeps the invariant, if there is at most one consumer thread. -/
theorem step {m' : Monitor} {l : MonitorStep} (h : Wakeful m)
    (hone : AtMostOne .done m.engine.stream.consumers) (hs : machine.step m l = some m') :
    Wakeful m' := by
  cases l with
  | engine l =>
    obtain ⟨ha, hmap⟩ := Option.ite_none_right_eq_some.1 hs
    obtain ⟨e, he, rfl⟩ := Option.map_eq_some_iff.1 hmap
    exact h.engineStep hone ha he
  | consumerTest t =>
    obtain ⟨hpc, hmap⟩ := Option.ite_none_right_eq_some.1 hs
    obtain ⟨e, he, rfl⟩ := Option.map_eq_some_iff.1 hmap
    obtain ⟨pc, hpc', hstep⟩ := Option.bind_eq_some_iff.1 he
    obtain rfl := Option.some.inj (hpc.symm.trans hpc')
    exact h.consumerTest hone hpc hstep
  | consumerWait t =>
    obtain ⟨ho, he⟩ := Option.ite_none_right_eq_some.1 hs
    obtain rfl := Option.some.inj he
    exact h.own (ho ▸ nofun) (fun hne => absurd rfl hne) nofun nofun
  | callbackLock =>
    obtain ⟨⟨hm, ho, -⟩, he⟩ := Option.ite_none_right_eq_some.1 hs
    obtain rfl := Option.some.inj he
    exact h.own (ho ▸ nofun) (fun _ => hm) nofun nofun
  | callbackEnqueue =>
    obtain ⟨ho, hmap⟩ := Option.ite_none_right_eq_some.1 hs
    obtain ⟨e, he, rfl⟩ := Option.map_eq_some_iff.1 hmap
    exact h.callbackEnqueue ho he
  | callbackSignal woken =>
    obtain ⟨ho, hmap⟩ := Option.ite_none_right_eq_some.1 hs
    obtain ⟨e, he, rfl⟩ := Option.map_eq_some_iff.1 hmap
    exact h.signal hone (ho ▸ nofun) (by simp) he
  | callbackUnlock =>
    obtain ⟨ho, he⟩ := Option.ite_none_right_eq_some.1 hs
    obtain rfl := Option.some.inj he
    exact h.own (ho ▸ nofun) (fun hne => absurd rfl hne) nofun nofun
  | appLock =>
    obtain ⟨⟨hm, ho, happ⟩, he⟩ := Option.ite_none_right_eq_some.1 hs
    obtain rfl := Option.some.inj he
    exact h.own (ho ▸ nofun) (fun _ => hm) (fun _ => happ) nofun
  | appSignal woken =>
    obtain ⟨ho, hmap⟩ := Option.ite_none_right_eq_some.1 hs
    obtain ⟨e, he, rfl⟩ := Option.map_eq_some_iff.1 hmap
    exact h.signal hone (ho ▸ nofun) (fun _ => h.app (.inl ho)) he
  | appUnlock =>
    obtain ⟨ho, hmap⟩ := Option.ite_none_right_eq_some.1 hs
    obtain ⟨e, he, rfl⟩ := Option.map_eq_some_iff.1 hmap
    exact h.appUnlock ho he

end Wakeful

namespace Monitor

/-- **No wake-up is lost**: in every run with at most one consumer thread at a time, a consumer
that is blocked while the device streams waits over an empty ring, unless a callback that owns the
mutex is about to signal it; and no consumer is blocked when a stop waits for it to exit. -/
theorem no_lost_wakeup {m : Monitor} {ls : List MonitorStep}
    (hone : machine.Always (fun m => AtMostOne .done m.engine.stream.consumers) initial ls)
    (h : machine.run initial ls = some m) :
    (∀ t, m.Blocked t → m.engine.stream.streaming = true →
      m.engine.NoBuffer ∨ m.owner = some .callbackSignal) ∧
    (m.engine.app = .joinConsumer → ∀ t, ¬ m.Blocked t) := by
  have hstep : ∀ m l m', Wakeful m ∧ AtMostOne .done m.engine.stream.consumers →
      AtMostOne .done m'.engine.stream.consumers → machine.step m l = some m' →
      Wakeful m' ∧ AtMostOne .done m'.engine.stream.consumers :=
    fun m l m' hm hone' hs => ⟨hm.1.step hm.2 hs, hone'⟩
  obtain ⟨hm, -⟩ := hone.invariant hstep ⟨.initial, hone.head⟩ h
  constructor
  · intro t hb _
    exact hm.consumer t _ hb.1
  · intro happ t hb
    exact (hm.awake (.inr (.inr happ)) _ (List.mem_of_getElem? hb.1)).1 rfl

/-- A session up to a received buffer, the consumer being asleep. -/
def sleepSteps : List MonitorStep :=
  Engine.startSteps.map .engine ++ List.replicate 4 (.engine (.consumer 0 false)) ++
    [.consumerTest 0, .consumerWait 0] ++ List.replicate 2 (.engine (.pump 0 false)) ++
    [.engine (.dispatch (.pump 0) 0 true)] ++ List.replicate 3 (.engine (.callback true)) ++
    [.callbackLock, .callbackEnqueue]

/-- The callback wakes the consumer, and a stop waits for it to exit. -/
def wakeSteps : List MonitorStep :=
  [.callbackSignal (some 0), .callbackUnlock] ++ List.replicate 2 (.engine (.callback true)) ++
    [.engine .callStop] ++ List.replicate (21 + 2 * transferCount) (.engine (.app true)) ++
    [.appLock, .appSignal none, .appUnlock] ++ List.replicate 3 (.engine (.pump 0 false)) ++
    [.engine (.app true)]

/-- A consumer that sleeps over a received buffer has a signal on its way, and it is awake when a
stop waits for it. -/
theorem sleepSteps_no_lost_wakeup :
    (∃ m, machine.run initial sleepSteps = some m ∧ m.Blocked 0 ∧ ¬ m.engine.NoBuffer ∧
      m.owner = some .callbackSignal) ∧
    ∃ m, machine.run initial (sleepSteps ++ wakeSteps) = some m ∧ m.engine.app = .joinConsumer ∧
      ∀ t, ¬ m.Blocked t := by
  have hsleep : (machine.run initial sleepSteps).map (fun m =>
      (m.engine.stream.consumers, m.owner, m.engine.stream.streaming,
        m.engine.stream.queue.receivedBufferCount)) =
      some ([.wait], some .callbackSignal, true, 1) := by decide +kernel
  have hwake : (machine.run initial (sleepSteps ++ wakeSteps)).map (fun m => m.engine.app) =
      some .joinConsumer := by decide +kernel
  obtain ⟨m, hm, heq⟩ := Option.map_eq_some_iff.1 hsleep
  obtain ⟨m', hm', happ⟩ := Option.map_eq_some_iff.1 hwake
  obtain ⟨hconsumers, howner, hstreaming, hcount⟩ := by simpa only [Prod.mk.injEq] using heq
  have hblocked : m.Blocked 0 := ⟨by rw [hconsumers]; rfl, by rw [howner]; exact nofun⟩
  have hbuffer : ¬ m.engine.NoBuffer := by
    rw [Engine.NoBuffer, hcount]
    decide
  refine ⟨⟨m, hm, hblocked, hbuffer, ?_⟩, m', hm', happ, ?_⟩
  · have hdue := (no_lost_wakeup (by decide +kernel) hm).1 0 hblocked hstreaming
    exact hdue.resolve_left hbuffer
  · exact (no_lost_wakeup (by decide +kernel) hm').2 happ

/-! ### Refinement -/

theorem signal_run {s e : Engine} {woken : Option ℕ} (hs : s.signal woken = some e) :
    ∃ ls, Engine.machine.run s ls = some e := by
  cases woken with
  | none =>
    obtain ⟨-, he⟩ := Option.ite_none_left_eq_some.1 hs
    exact ⟨[], he⟩
  | some t =>
    obtain ⟨-, he⟩ := Option.ite_none_right_eq_some.1 hs
    exact ⟨[_], Machine.run_cons.2 ⟨e, he, rfl⟩⟩

/-- **A monitor refines the engine**: what its threads do, those of the engine can do. -/
theorem refines_engine :
    machine.Refines Engine.machine (fun m e => m.engine = e) fun _ _ => True := by
  rintro m _ l m' rfl - hs
  have hmap : ∀ {l : EngineStep} {f : Engine → Monitor}, (∀ e, (f e).engine = e) →
      (Engine.machine.step m.engine l).map f = some m' →
      ∃ ls e, Engine.machine.run m.engine ls = some e ∧ m'.engine = e := by
    rintro l f hf hs
    obtain ⟨e, he, rfl⟩ := Option.map_eq_some_iff.1 hs
    exact ⟨[l], e, Machine.run_cons.2 ⟨e, he, rfl⟩, hf e⟩
  cases l with
  | engine | consumerTest | callbackEnqueue | appUnlock =>
    exact hmap (fun _ => rfl) (Option.ite_none_right_eq_some.1 hs).2
  | callbackSignal | appSignal =>
    obtain ⟨e, he, rfl⟩ := Option.map_eq_some_iff.1 (Option.ite_none_right_eq_some.1 hs).2
    obtain ⟨ls, hls⟩ := signal_run he
    exact ⟨ls, e, hls, rfl⟩
  | consumerWait | callbackLock | callbackUnlock | appLock =>
    obtain rfl := Option.some.inj (Option.ite_none_right_eq_some.1 hs).2
    exact ⟨[], m.engine, rfl, rfl⟩

end Monitor

end AirspyHF
