import AirspyHF.Machine.Potential
import AirspyHF.Stream.Drain
import AirspyHF.Stream.Wakeup

/-!
# A stop returns

From the moment `airspyhf_stop` has cleared `streaming`, every thread of the device runs towards its
end: the consumer and the transfer thread leave their loops, and a callback does not resubmit its
transfer any more, unless it tested the flags before.  Every step lowers a potential
(`Engine.potential`, `Monitor.potential`).

Nor is the stop ever stuck.  The mutex is owned by a thread that can go on (`Locked`), the handles
that the stop joins denote threads (`Handled`), and no consumer is left waiting (`Wakeful`).  So the
stop returns, in whatever order the threads move, and no spurious wake-up is needed
(`Monitor.stop_terminates`).
-/

namespace AirspyHF

/-! ### The mutex and the handles -/

/-- The consumer owns the mutex at this program point. -/
def ConsumerPc.Owns : ConsumerPc → Prop
  | .outer _ | .inner _ | .check _ | .take | .finish | .unlock => True
  | .lock | .wait | .relock | .process .. | .halt .. | .release .. | .done => False

/-- The mutex is owned by the consumer thread that is in its critical section. -/
structure Locked (s : Engine) : Prop where
  owns : ∀ t pc, s.stream.consumers[t]? = some pc → (pc.Owns ↔ s.mutex = some t)
  exists_owner : ∀ t, s.mutex = some t → ∃ pc, s.stream.consumers[t]? = some pc

/-- A handle that is to be joined denotes a thread. -/
structure Handled (s : Engine) : Prop where
  consumer : s.stream.consumerThreadRunning = true →
    ∃ t < s.stream.consumers.length, s.stream.consumerThread = some t
  pump : s.stream.transferThreadRunning = true →
    ∃ t < s.stream.pumps.length, s.stream.transferThread = some t

namespace Locked

open Engine

variable {s s' : Engine}

theorem initial : Locked .initial := ⟨nofun, nofun⟩

theorem keep (h : Locked s) (hc : s'.stream.consumers = s.stream.consumers)
    (hm : s'.mutex = s.mutex) : Locked s' := by
  constructor
  · rw [hc, hm]
    exact h.owns
  · rw [hc, hm]
    exact h.exists_owner

/-- A consumer moves, and the mutex with it: it gets it, keeps it or releases it. -/
theorem consumerTo (h : Locked s) {t : ℕ} {pc pc' : ConsumerPc} {stream : Stream}
    {mutex : Option ℕ} (hpc : s.stream.consumers[t]? = some pc)
    (hc : stream.consumers = s.stream.consumers) (hown : pc'.Owns ↔ mutex = some t)
    (hother : ∀ t', t' ≠ t → (mutex = some t' ↔ s.mutex = some t')) :
    Locked (s.consumerTo t stream mutex pc') := by
  have hlt := (List.getElem?_eq_some_iff.1 hpc).1
  constructor
  · intro t' pc'' ht'
    rw [Engine.consumerTo, Stream.moveConsumer, hc] at ht'
    by_cases he : t = t'
    · subst he
      rw [List.getElem?_set_self hlt] at ht'
      exact Option.some.inj ht' ▸ hown
    · rw [List.getElem?_set_ne he] at ht'
      exact (h.owns t' pc'' ht').trans (hother t' (Ne.symm he)).symm
  · intro t' hm
    rw [Engine.consumerTo, Stream.moveConsumer, hc]
    by_cases he : t = t'
    · subst he
      exact ⟨pc', List.getElem?_set_self hlt⟩
    · obtain ⟨pc'', ht'⟩ := h.exists_owner t' ((hother t' (Ne.symm he)).1 hm)
      exact ⟨pc'', (List.getElem?_set_ne he).trans ht'⟩

theorem consumerMove (h : Locked s) {t : ℕ} {pc : ConsumerPc}
    (hpc : s.stream.consumers[t]? = some pc) (hm : s.ConsumerMoves t pc s') : Locked s' := by
  have hown := h.owns t pc hpc
  -- who owns the mutex and releases it leaves it to no other thread
  have hrelease (hm : s.mutex = some t) (t' : ℕ) (hne : t' ≠ t) :
      none = some t' ↔ s.mutex = some t' := by
    simp [hm, hne.symm]
  have hget (hm : s.mutex = none) (t' : ℕ) (hne : t' ≠ t) :
      some t = some t' ↔ s.mutex = some t' := by
    simp [hm, hne.symm]
  cases hm with
  | lock hm | relock hm | release hm =>
    exact h.consumerTo hpc rfl (by simp [ConsumerPc.Owns]) (hget hm)
  | outerStreaming | outerEnter | outerLeave | innerStreaming | innerLeave | innerStop
  | checkStreaming | checkTake | checkLeave | finish =>
    exact h.consumerTo hpc rfl hown fun _ _ => Iff.rfl
  | wake | goOn | giveUp | halt => exact h.consumerTo hpc rfl hown fun _ _ => Iff.rfl
  | innerWait | take | unlock =>
    exact h.consumerTo hpc rfl (by simp [ConsumerPc.Owns]) (hrelease (hown.1 trivial))

theorem createConsumer (h : Locked s) (pc : AppPc) :
    Locked (s.appTo s.stream.createConsumer pc) := by
  constructor
  · intro t pc' ht
    rcases Nat.lt_or_ge t s.stream.consumers.length with hlt | hge
    · exact h.owns t pc' ((List.getElem?_append_left hlt).symm.trans ht)
    · obtain rfl := List.eq_of_mem_singleton (List.mem_of_getElem?
        ((List.getElem?_append_right hge).symm.trans ht))
      refine iff_of_false id fun hm => ?_
      obtain ⟨pc'', ht'⟩ := h.exists_owner t hm
      exact absurd (List.getElem?_eq_some_iff.1 ht').1 (not_lt.2 hge)
  · intro t hm
    obtain ⟨pc'', ht'⟩ := h.exists_owner t hm
    exact ⟨pc'', (List.getElem?_append_left (List.getElem?_eq_some_iff.1 ht').1).trans ht'⟩

/-- **One step** keeps the mutex with the thread that is in its critical section. -/
theorem step {l : EngineStep} (h : Locked s) (hs : machine.step s l = some s') : Locked s' := by
  cases moves_of_step hs with
  | callStart | callStop | dispatch => exact h.keep rfl rfl
  | app hm =>
    cases hm with
    | createConsumer => exact h.createConsumer _
    | cancel _ hi =>
      obtain ⟨status, he⟩ := s.stream.cancelTransfer_eq ⟨_, hi⟩
      rw [he]
      exact h.keep rfl rfl
    | _ => exact h.keep rfl rfl
  | consumer hpc hm => exact h.consumerMove hpc hm
  | pump _ hm =>
    obtain ⟨-, -, streaming, pc', rfl⟩ := hm.frame
    exact h.keep rfl rfl
  | callback _ hm =>
    obtain ⟨streaming, queue, status, live, callback, rfl, -⟩ := hm.frame
    exact h.keep rfl rfl

end Locked

namespace Handled

open Engine

variable {s s' : Engine}

theorem initial : Handled .initial := ⟨nofun, nofun⟩

theorem keep (h : Handled s) (hc : s'.stream.consumerThread = s.stream.consumerThread)
    (hcr : s'.stream.consumerThreadRunning = s.stream.consumerThreadRunning)
    (hcs : s'.stream.consumers.length = s.stream.consumers.length)
    (hp : s'.stream.transferThread = s.stream.transferThread)
    (hpr : s'.stream.transferThreadRunning = s.stream.transferThreadRunning)
    (hps : s'.stream.pumps.length = s.stream.pumps.length) : Handled s' := by
  constructor
  · rw [hc, hcr, hcs]
    exact h.consumer
  · rw [hp, hpr, hps]
    exact h.pump

theorem app (h : Handled s) (hm : s.AppMoves s') : Handled s' := by
  cases hm with
  | createConsumer =>
    refine ⟨fun _ => ⟨s.stream.consumers.length, ?_, rfl⟩, h.pump⟩
    simp [appTo, Stream.createConsumer]
  | createTransfer =>
    refine ⟨h.consumer, fun _ => ⟨s.stream.pumps.length, ?_, rfl⟩⟩
    simp [appTo, Stream.createTransfer]
  | joinTransfer => exact ⟨h.consumer, fun hr => absurd hr Bool.false_ne_true⟩
  | joinConsumer => exact ⟨fun hr => absurd hr Bool.false_ne_true, h.pump⟩
  | cancel _ hi =>
    obtain ⟨status, he⟩ := s.stream.cancelTransfer_eq ⟨_, hi⟩
    rw [he]
    exact h.keep rfl rfl rfl rfl rfl rfl
  | _ => exact h.keep rfl rfl rfl rfl rfl rfl

/-- **One step** keeps the handles. -/
theorem step {l : EngineStep} (h : Handled s) (hs : machine.step s l = some s') : Handled s' := by
  cases moves_of_step hs with
  | callStart | callStop | dispatch => exact h.keep rfl rfl rfl rfl rfl rfl
  | app hm => exact h.app hm
  | consumer _ hm =>
    obtain ⟨-, streaming, queue, mutex, pc', rfl⟩ := hm.frame
    exact h.keep rfl rfl List.length_set rfl rfl rfl
  | pump _ hm =>
    obtain ⟨-, -, streaming, pc', rfl⟩ := hm.frame
    exact h.keep rfl rfl rfl rfl rfl List.length_set
  | callback _ hm =>
    obtain ⟨streaming, queue, status, live, callback, rfl, -⟩ := hm.frame
    exact h.keep rfl rfl rfl rfl rfl rfl

end Handled

/-! ### The end of a stop -/

/-- A stop has cleared `streaming` and not returned. -/
def AppPc.Closing : AppPc → Prop
  | .cancel _ | .drain _ | .poll _ | .signal | .joinTransfer | .joinConsumer | .finalPoll => True
  | _ => False

instance : DecidablePred AppPc.Closing
  | .cancel _ | .drain _ | .poll _ | .signal | .joinTransfer | .joinConsumer | .finalPoll =>
    isTrue trivial
  | .idle _ | .startOff .. | .startOn .. | .startTest .. | .submit _ | .submitted _ | .reset
  | .createConsumer | .createTransfer | .stopOff | .kill | .halt => isFalse id

/-- The device does not stream while a stop is about to return. -/
def Engine.Closed (s : Engine) : Prop := s.app.Closing → s.stream.streaming = false

namespace Engine.Closed

open Engine

variable {s s' : Engine}

theorem app (h : s.Closed) (hm : s.AppMoves s') : s'.Closed := by
  cases hm with
  | halt => exact fun _ => rfl
  | cancel happ hi =>
    obtain ⟨status, he⟩ := s.stream.cancelTransfer_eq ⟨_, hi⟩
    rw [he]
    exact fun _ => h (happ ▸ trivial)
  | cancelDone happ | poll happ | drained happ | pollReturn happ | signal happ | joinTransfer happ
  | skipTransfer happ | joinConsumer happ | skipConsumer happ =>
    exact fun _ => h (happ ▸ trivial)
  | _ => exact nofun

/-- **One step** keeps it: only a start raises the flag. -/
theorem step {l : EngineStep} (h : s.Closed) (hs : machine.step s l = some s') : s'.Closed := by
  cases moves_of_step hs with
  | callStart | callStop => exact nofun
  | dispatch => exact h
  | app hm => exact h.app hm
  | consumer _ hm =>
    cases hm with
    | halt | finish => exact fun _ => rfl
    | _ => exact h
  | pump _ hm =>
    cases hm with
    | halt | finish => exact fun _ => rfl
    | _ => exact h
  | callback _ hm =>
    cases hm with
    | fail => exact fun _ => rfl
    | _ => exact h

end Engine.Closed

/-! ### The potential -/

/-- How far a consumer is from its end, when it is to leave. -/
def ConsumerPc.rank : ConsumerPc → ℕ
  | .done => 0
  | .unlock => 1
  | .finish => 2
  | .outer false | .check false => 3
  | .lock | .inner false | .release .. => 4
  | .outer true | .relock | .halt .. => 5
  | .wait | .process .. => 6
  | .take => 7
  | .inner true | .check true => 8

/-- How far a transfer thread is from its end, when it is to leave. -/
def PumpPc.rank : PumpPc → ℕ
  | .done => 0
  | .finish => 1
  | .loop false => 2
  | .halt => 3
  | .handling => 4
  | .loop true => 5

/-- How far a callback is from its end; it may resubmit its transfer on the way. -/
def CallbackPc.rank : CallbackPc → ℕ
  | .countUp | .fail | .test _ _ false => 1
  | .account .. => 2
  | .submit _ => 5
  | .lock _ => 9
  | .test _ _ true => 10

/-- How far a stop is from its return. -/
def AppPc.rank : AppPc → ℕ
  | .finalPoll => 1
  | .joinConsumer => 2
  | .joinTransfer => 3
  | .signal => 6
  | .poll n => 8 + 2 * (transferCount - (n + 1))
  | .drain n => 7 + 2 * (transferCount - n)
  | .cancel i => 41 + (transferCount - i)
  | _ => 0

/-- How far the callback that libusb is running is from its end. -/
def callbackRank : Option (Handler × CallbackPc) → ℕ
  | some (_, pc) => pc.rank
  | none => 0

/-- How far the threads and the transfers of an engine are from their end. -/
def Engine.potential (s : Engine) : ℕ :=
  s.app.rank + (s.stream.consumers.map ConsumerPc.rank).sum + (s.stream.pumps.map PumpPc.rank).sum +
    3 * s.stream.inFlight + callbackRank s.callback

theorem Stream.inFlight_congr {s s' : Stream} (h : s'.transferStatus = s.transferStatus) :
    s'.inFlight = s.inFlight := by
  have hset : s'.InFlight = s.InFlight := by
    funext i
    rw [Stream.InFlight, Stream.InFlight, h]
  simp only [inFlight, hset]

namespace Engine

variable {s s' : Engine}

theorem potential_appTo {stream : Stream} (pc : AppPc)
    (hc : stream.consumers = s.stream.consumers) (hp : stream.pumps = s.stream.pumps)
    (hi : stream.inFlight = s.stream.inFlight) :
    (s.appTo stream pc).potential + s.app.rank = s.potential + pc.rank := by
  simp only [potential, appTo, hc, hp, hi]
  omega

theorem potential_consumerTo {stream : Stream} (mutex : Option ℕ) {t : ℕ} {pc : ConsumerPc}
    (pc' : ConsumerPc) (hpc : s.stream.consumers[t]? = some pc)
    (hc : stream.consumers = s.stream.consumers) (hp : stream.pumps = s.stream.pumps)
    (hi : stream.transferStatus = s.stream.transferStatus) :
    (s.consumerTo t stream mutex pc').potential + pc.rank = s.potential + pc'.rank := by
  have hsum := sum_map_set ConsumerPc.rank hpc pc'
  have hflight : (stream.moveConsumer t pc').inFlight = s.stream.inFlight :=
    Stream.inFlight_congr hi
  simp only [potential, consumerTo, hflight]
  simp only [Stream.moveConsumer, hc, hp]
  omega

theorem potential_pumpTo {stream : Stream} {t : ℕ} {pc : PumpPc} (pc' : PumpPc)
    (hpc : s.stream.pumps[t]? = some pc) (hc : stream.consumers = s.stream.consumers)
    (hp : stream.pumps = s.stream.pumps) (hi : stream.transferStatus = s.stream.transferStatus) :
    (s.pumpTo t stream pc').potential + pc.rank = s.potential + pc'.rank := by
  have hsum := sum_map_set PumpPc.rank hpc pc'
  have hflight : (stream.movePump t pc').inFlight = s.stream.inFlight :=
    Stream.inFlight_congr hi
  simp only [potential, pumpTo, hflight]
  simp only [Stream.movePump, hc, hp]
  omega

/-- **The stop** comes closer to its return with every step of its own. -/
theorem potential_app (happ : s.app.Closing) (hm : s.AppMoves s') :
    s'.potential < s.potential ∧ (s.app = .signal → s'.potential + 3 ≤ s.potential) := by
  have hmove {stream : Stream} {pc : AppPc} (hc : stream.consumers = s.stream.consumers)
      (hp : stream.pumps = s.stream.pumps) (hi : stream.inFlight = s.stream.inFlight)
      (hrank : pc.rank < s.app.rank) (hsignal : s.app = .signal → pc.rank + 3 ≤ s.app.rank) :
      (s.appTo stream pc).potential < s.potential ∧
        (s.app = .signal → (s.appTo stream pc).potential + 3 ≤ s.potential) := by
    have hpotential := potential_appTo (s := s) pc hc hp hi
    refine ⟨by omega, fun h => ?_⟩
    have := hsignal h
    omega
  cases hm with
  | cancel h hi =>
    obtain ⟨status, he⟩ := s.stream.cancelTransfer_eq ⟨_, hi⟩
    have hflight := s.stream.inFlight_cancelTransfer ⟨_, hi⟩
    rw [he] at hflight ⊢
    refine hmove rfl rfl hflight ?_ (fun hsignal => absurd (h.symm.trans hsignal) nofun)
    rw [h]
    simp only [AppPc.rank]
    omega
  | cancelDone h hi =>
    refine hmove rfl rfl rfl ?_ (fun hsignal => absurd (h.symm.trans hsignal) nofun)
    rw [h]
    simp only [AppPc.rank, transferCount]
    omega
  | poll h hn | drained h hn =>
    refine hmove rfl rfl rfl ?_ (fun hsignal => absurd (h.symm.trans hsignal) nofun)
    rw [h]
    simp only [AppPc.rank]
    omega
  | pollReturn h | joinTransfer h | skipTransfer h | joinConsumer h | skipConsumer h | stopped h =>
    refine hmove rfl rfl rfl ?_ (fun hsignal => absurd (h.symm.trans hsignal) nofun)
    rw [h]
    simp [AppPc.rank]
  | signal h =>
    refine hmove rfl rfl rfl ?_ fun _ => ?_ <;>
    · rw [h]
      decide
  | _ h => exact absurd happ (by rw [h]; exact id)

/-- **A consumer** that is to leave lowers the potential. -/
theorem potential_consumer (hst : s.stream.streaming = false) {t : ℕ} {ret : Bool} {pc : ConsumerPc}
    (hpc : s.stream.consumers[t]? = some pc) (hs : s.consumerStep t ret pc = some s') :
    s'.potential < s.potential ∧ (pc = .inner true → s'.potential + 2 ≤ s.potential) := by
  have hmove {stream : Stream} {mutex : Option ℕ} {pc' : ConsumerPc}
      (hc : stream.consumers = s.stream.consumers) (hp : stream.pumps = s.stream.pumps)
      (hi : stream.transferStatus = s.stream.transferStatus) (hrank : pc'.rank < pc.rank)
      (hinner : pc = .inner true → pc'.rank + 2 ≤ pc.rank) :
      (s.consumerTo t stream mutex pc').potential < s.potential ∧
        (pc = .inner true → (s.consumerTo t stream mutex pc').potential + 2 ≤ s.potential) := by
    have hpotential := potential_consumerTo mutex pc' hpc hc hp hi
    refine ⟨by omega, fun h => ?_⟩
    have := hinner h
    omega
  cases pc with
  | lock | relock | release =>
    obtain ⟨-, he⟩ := Option.ite_none_right_eq_some.1 hs
    obtain rfl := Option.some.inj he
    exact hmove rfl rfl rfl (by simp [ConsumerPc.rank]) nofun
  | outer half | check half =>
    cases half with
    | false =>
      obtain rfl := Option.some.inj hs
      rw [hst]
      exact hmove rfl rfl rfl (by decide) nofun
    | true =>
      obtain rfl := Option.some.inj hs
      split <;> exact hmove rfl rfl rfl (by decide) nofun
  | inner half =>
    cases half with
    | false =>
      obtain rfl := Option.some.inj hs
      rw [if_neg (by simp [hst])]
      exact hmove rfl rfl rfl (by decide) nofun
    | true =>
      obtain rfl := Option.some.inj hs
      split
      · exact hmove rfl rfl rfl (by decide) fun _ => by decide
      · exact hmove rfl rfl rfl (by decide) fun _ => by decide
  | process =>
    obtain rfl := Option.some.inj hs
    split <;> exact hmove rfl rfl rfl (by simp [ConsumerPc.rank]) nofun
  | wait | take | halt | finish | unlock =>
    obtain rfl := Option.some.inj hs
    exact hmove rfl rfl rfl (by simp [ConsumerPc.rank]) nofun
  | done => exact absurd hs nofun

/-- A transfer thread that is to leave lowers the potential. -/
theorem potential_pump (hst : s.stream.streaming = false) {t : ℕ} {fails : Bool} {pc : PumpPc}
    (hpc : s.stream.pumps[t]? = some pc) (hs : s.pumpStep t fails pc = some s') :
    s'.potential < s.potential := by
  have hmove {stream : Stream} {pc' : PumpPc} (hc : stream.consumers = s.stream.consumers)
      (hp : stream.pumps = s.stream.pumps) (hi : stream.transferStatus = s.stream.transferStatus)
      (hrank : pc'.rank < pc.rank) : (s.pumpTo t stream pc').potential < s.potential := by
    have hpotential := potential_pumpTo pc' hpc hc hp hi
    omega
  cases pc with
  | loop half =>
    cases half with
    | false =>
      obtain rfl := Option.some.inj hs
      rw [hst]
      exact hmove rfl rfl rfl (by decide)
    | true =>
      obtain rfl := Option.some.inj hs
      split <;> exact hmove rfl rfl rfl (by decide)
  | handling =>
    obtain ⟨-, he⟩ := Option.ite_none_right_eq_some.1 hs
    obtain rfl := Option.some.inj he
    split <;> exact hmove rfl rfl rfl (by decide)
  | halt | finish =>
    obtain rfl := Option.some.inj hs
    exact hmove rfl rfl rfl (by decide)
  | done => exact absurd hs nofun

theorem potential_callbackTo {stream : Stream} {hd : Handler} {pc : CallbackPc}
    (callback : Option (Handler × CallbackPc)) (hcb : s.callback = some (hd, pc))
    (hc : stream.consumers = s.stream.consumers) (hp : stream.pumps = s.stream.pumps) :
    Engine.potential { s with stream := stream, callback := callback } + pc.rank +
      3 * s.stream.inFlight = s.potential + callbackRank callback + 3 * stream.inFlight := by
  simp only [potential, hcb, hc, hp, callbackRank]
  omega

/-- **A callback** lowers the potential, also if it resubmits its transfer. -/
theorem potential_callback (hst : s.stream.streaming = false) {hd : Handler} {ok : Bool}
    {pc : CallbackPc} (hc : s.callback = some (hd, pc)) (hs : s.callbackStep hd ok pc = some s') :
    s'.potential < s.potential ∧ (∀ i, pc = .lock i → s'.potential + 4 ≤ s.potential) := by
  -- the transfers in flight are left alone, except by a resubmission
  have hmove {stream : Stream} {callback : Option (Handler × CallbackPc)}
      (hcs : stream.consumers = s.stream.consumers) (hp : stream.pumps = s.stream.pumps)
      (hi : stream.transferStatus = s.stream.transferStatus)
      (hrank : callbackRank callback < pc.rank)
      (hlock : ∀ i, pc = .lock i → callbackRank callback + 4 ≤ pc.rank) :
      Engine.potential { s with stream := stream, callback := callback } < s.potential ∧ ∀ i,
        pc = .lock i →
          Engine.potential { s with stream := stream, callback := callback } + 4 ≤ s.potential := by
    have hpotential := potential_callbackTo callback hc hcs hp
    have hflight := Stream.inFlight_congr hi
    refine ⟨by omega, fun i h => ?_⟩
    have := hlock i h
    omega
  cases callbackMoves_of_step hs with
  | testStreaming hstr => exact absurd (hst.symm.trans hstr) nofun
  | @submit i _ hsub =>
    have hflight := Stream.inFlight_submit hsub.1
    have hpotential := potential_callbackTo (some (hd, .countUp)) hc
      (show (s.stream.submit i).consumers = _ from rfl) rfl
    simp only [callbackRank, CallbackPc.rank] at hpotential
    exact ⟨by omega, nofun⟩
  | receive =>
    refine hmove rfl rfl rfl ?_ fun _ _ => ?_ <;>
    simp [callbackRank, CallbackPc.rank]
  | account | testHalted | testStopped | testReceive | testFail | submitFail | countUp | fail =>
    refine hmove rfl rfl rfl ?_ nofun
    simp [callbackRank, CallbackPc.rank]

theorem potential_dispatch (hc : s.callback = none) (hd : Handler) {i : Fin transferCount}
    (hi : s.stream.InFlight i) (complete : Bool) :
    (s.dispatch hd i complete).potential < s.potential := by
  have hflight := Stream.inFlight_completeTransfer hi
  simp only [potential, dispatch, hc, callbackRank, CallbackPc.rank]
  simp only [Stream.completeTransfer] at hflight ⊢
  omega

/-! ### No thread is stuck -/

theorem callback_progress {hd : Handler} {pc : CallbackPc} (hc : s.callback = some (hd, pc))
    (hm : pc.Locks → s.mutex = none) : ∃ s', machine.step s (.callback true) = some s' := by
  have hstep : machine.step s (.callback true) = s.callbackStep hd true pc := by
    change s.callback.bind _ = _
    rw [hc]
    rfl
  rw [hstep]
  cases pc with
  | lock => exact ⟨_, if_pos (hm trivial)⟩
  | test _ _ half => cases half <;> exact ⟨_, rfl⟩
  | account | submit | countUp | fail => exact ⟨_, rfl⟩

theorem consumer_progress {t : ℕ} {pc : ConsumerPc} (hpc : s.stream.consumers[t]? = some pc)
    (hne : pc ≠ .done) (hm : pc.Locks → s.mutex = none) :
    ∃ s', machine.step s (.consumer t false) = some s' := by
  have hstep : machine.step s (.consumer t false) = s.consumerStep t false pc := by
    change (s.stream.consumers[t]?).bind _ = _
    rw [hpc]
    rfl
  rw [hstep]
  cases pc with
  | lock | relock | release => exact ⟨_, if_pos (hm trivial)⟩
  | outer half | inner half | check half => cases half <;> exact ⟨_, rfl⟩
  | wait | take | process | halt | finish | unlock => exact ⟨_, rfl⟩
  | done => exact absurd rfl hne

theorem returns_of_none (hc : s.callback = none) (h : Handler) : s.Returns h :=
  fun _ he => absurd (hc.symm.trans he) (Option.some_ne_none _).symm

theorem pump_progress {t : ℕ} {pc : PumpPc} (hpc : s.stream.pumps[t]? = some pc)
    (hne : pc ≠ .done) (hc : s.callback = none) :
    ∃ s', machine.step s (.pump t false) = some s' := by
  have hstep : machine.step s (.pump t false) = s.pumpStep t false pc := by
    change (s.stream.pumps[t]?).bind _ = _
    rw [hpc]
    rfl
  rw [hstep]
  cases pc with
  | loop half => cases half <;> exact ⟨_, rfl⟩
  | handling => exact ⟨_, if_pos (returns_of_none hc _)⟩
  | halt | finish => exact ⟨_, rfl⟩
  | done => exact absurd rfl hne

/-- A stop can go on if no callback runs, unless it waits for the mutex or for a thread. -/
theorem app_progress (happ : s.app.Closing) (hc : s.callback = none) (hsignal : s.app ≠ .signal)
    (hpump : s.app = .joinTransfer → s.stream.transferThreadRunning = true →
      Joinable .done s.stream.pumps s.stream.transferThread)
    (hconsumer : s.app = .joinConsumer → s.stream.consumerThreadRunning = true →
      Joinable .done s.stream.consumers s.stream.consumerThread) :
    ∃ s', machine.step s (.app true) = some s' := by
  change ∃ s', s.appStep true = some s'
  unfold appStep
  cases h : s.app with
  | poll | finalPoll => exact ⟨_, if_pos (returns_of_none hc _)⟩
  | cancel i =>
    by_cases hi : i < transferCount
    · exact ⟨_, dif_pos hi⟩
    · exact ⟨_, dif_neg hi⟩
  | drain => exact ⟨_, rfl⟩
  | joinTransfer =>
    by_cases hr : s.stream.transferThreadRunning = true
    · exact ⟨_, (if_pos hr).trans (if_pos (hpump h hr))⟩
    · exact ⟨_, if_neg hr⟩
  | joinConsumer =>
    by_cases hr : s.stream.consumerThreadRunning = true
    · exact ⟨_, (if_pos hr).trans (if_pos (hconsumer h hr))⟩
    · exact ⟨_, if_neg hr⟩
  | signal => exact absurd h hsignal
  | _ =>
    rw [h] at happ
    exact absurd happ id

end Engine

/-! ### The monitor -/

/-- How far a thread in a critical section is from its end. -/
def ownerRank : Option Section → ℕ
  | some .appUnlock => 0
  | some .appSignal | some .callbackEnqueue => 1
  | none => 2
  | some (.consumerWait _) | some .callbackUnlock => 3
  | some .callbackSignal => 4

/-- How far the threads and the transfers of a monitor are from their end. -/
def Monitor.potential (m : Monitor) : ℕ := m.engine.potential + ownerRank m.owner

/-- The step is one that a thread takes by itself: no call, no completion of a transfer, and no
wake-up without a signal. -/
def Monitor.Due (m : Monitor) : MonitorStep → Prop
  | .engine (.callStart ..) | .engine .callStop | .engine (.dispatch ..) => False
  | .engine (.consumer t _) => m.engine.stream.consumers[t]? ≠ some .wait
  | _ => True

/-- What the progress of a monitor rests on. -/
structure Sound (m : Monitor) : Prop where
  wakeful : Wakeful m
  locked : Locked m.engine
  handled : Handled m.engine
  closed : m.engine.Closed
  enqueue : m.owner = some .callbackEnqueue → ∃ h i, m.engine.callback = some (h, .lock i)

namespace Sound

open Monitor

variable {m m' : Monitor}

theorem initial : Sound .initial :=
  ⟨.initial, .initial, .initial, nofun, nofun⟩

/-- The callback stays where it is while it owns the mutex. -/
theorem enqueue_step (h : Sound m) {l : MonitorStep} (hs : machine.step m l = some m')
    (ho : m'.owner = some .callbackEnqueue) :
    ∃ h i, m'.engine.callback = some (h, .lock i) := by
  cases l with
  | engine l =>
    obtain ⟨ha, hmap⟩ := Option.ite_none_right_eq_some.1 hs
    obtain ⟨e, he, rfl⟩ := Option.map_eq_some_iff.1 hmap
    obtain ⟨hd, i, hc⟩ := h.enqueue ho
    refine ⟨hd, i, ?_⟩
    cases Engine.moves_of_step he with
    | callStart | callStop => exact hc
    | app hm => cases hm with | _ => exact hc
    | consumer _ hm =>
      obtain ⟨-, streaming, queue, mutex, pc', rfl⟩ := hm.frame
      exact hc
    | pump _ hm =>
      obtain ⟨-, -, streaming, pc', rfl⟩ := hm.frame
      exact hc
    | dispatch hc' => exact absurd (hc.symm.trans hc') nofun
    | callback => exact absurd (.inl ho) ha.1
  | callbackLock =>
    obtain ⟨⟨-, -, ⟨hd, pc⟩, hc, hl⟩, he⟩ := Option.ite_none_right_eq_some.1 hs
    obtain rfl := Option.some.inj he
    cases pc with
    | lock i => exact ⟨hd, i, hc⟩
    | _ => exact absurd hl id
  | consumerTest | callbackEnqueue =>
    obtain ⟨e, -, rfl⟩ := Option.map_eq_some_iff.1 (Option.ite_none_right_eq_some.1 hs).2
    split at ho <;> exact absurd ho nofun
  | callbackSignal | appSignal | appUnlock =>
    obtain ⟨e, -, rfl⟩ := Option.map_eq_some_iff.1 (Option.ite_none_right_eq_some.1 hs).2
    exact absurd ho nofun
  | consumerWait | callbackUnlock | appLock =>
    obtain rfl := Option.some.inj (Option.ite_none_right_eq_some.1 hs).2
    exact absurd ho nofun

/-- **One step** keeps it, if there is at most one consumer thread. -/
theorem step (h : Sound m) (hone : AtMostOne .done m.engine.stream.consumers) {l : MonitorStep}
    (hs : machine.step m l = some m') : Sound m' := by
  obtain ⟨ls, e, hls, rfl⟩ := refines_engine m _ l m' rfl trivial hs
  exact ⟨h.wakeful.step hone hs, Machine.run_invariant (fun _ _ _ => Locked.step) h.locked hls,
    Machine.run_invariant (fun _ _ _ => Handled.step) h.handled hls,
    Machine.run_invariant (fun _ _ _ => Engine.Closed.step) h.closed hls, h.enqueue_step hs⟩

end Sound

namespace Engine

variable {s s' : Engine}

/-- **One step** of an engine that is closing lowers its potential. -/
theorem potential_step (hst : s.stream.streaming = false) (happ : s.app.Closing)
    {l : EngineStep} (hs : machine.step s l = some s') : s'.potential < s.potential := by
  cases l with
  | consumer t ret =>
    obtain ⟨pc, hpc, hstep⟩ := Option.bind_eq_some_iff.1 hs
    exact (potential_consumer hst hpc hstep).1
  | pump t fails =>
    obtain ⟨pc, hpc, hstep⟩ := Option.bind_eq_some_iff.1 hs
    exact potential_pump hst hpc hstep
  | callback ok =>
    obtain ⟨⟨hd, pc⟩, hc, hstep⟩ := Option.bind_eq_some_iff.1 hs
    exact (potential_callback hst hc hstep).1
  | app ok => exact (potential_app happ (appMoves_of_step hs)).1
  | dispatch hd i complete =>
    obtain ⟨⟨hc, -, hi⟩, he⟩ := Option.ite_none_right_eq_some.1 hs
    obtain rfl := Option.some.inj he
    exact potential_dispatch hc hd hi complete
  | callStart callback ctx =>
    cases moves_of_step hs with
    | callStart h =>
      rw [h] at happ
      exact absurd happ id
  | callStop =>
    cases moves_of_step hs with
    | callStop h =>
      rw [h] at happ
      exact absurd happ id

theorem potential_signal (hst : s.stream.streaming = false) (happ : s.app.Closing)
    {woken : Option ℕ} (hs : s.signal woken = some s') : s'.potential ≤ s.potential := by
  cases woken with
  | none =>
    obtain ⟨-, he⟩ := Option.ite_none_left_eq_some.1 hs
    exact (congrArg potential (Option.some.inj he)).ge
  | some t => exact (potential_step hst happ (Option.ite_none_right_eq_some.1 hs).2).le

theorem signal_progress (s : Engine) : ∃ woken s', s.signal woken = some s' := by
  by_cases h : .wait ∈ s.stream.consumers
  · obtain ⟨t, ht⟩ := List.mem_iff_getElem?.1 h
    obtain ⟨s', hs'⟩ := consumer_progress ht nofun (fun hl => absurd hl id)
    exact ⟨some t, s', (if_pos ht).trans hs'⟩
  · exact ⟨none, s, if_neg h⟩

end Engine

namespace Sound

open Monitor

variable {m m' : Monitor}

/-- **One step** of a monitor that is closing lowers its potential. -/
theorem potential_step (h : Sound m) (happ : m.engine.app.Closing) {l : MonitorStep}
    (hs : machine.step m l = some m') : m'.potential < m.potential := by
  have hst := h.closed happ
  cases l with
  | engine l =>
    obtain ⟨-, hmap⟩ := Option.ite_none_right_eq_some.1 hs
    obtain ⟨e, he, rfl⟩ := Option.map_eq_some_iff.1 hmap
    exact Nat.add_lt_add_right (Engine.potential_step hst happ he) _
  | consumerTest t =>
    obtain ⟨hpc, hmap⟩ := Option.ite_none_right_eq_some.1 hs
    obtain ⟨e, he, rfl⟩ := Option.map_eq_some_iff.1 hmap
    obtain ⟨pc, hpc', hstep⟩ := Option.bind_eq_some_iff.1 he
    obtain rfl := Option.some.inj (hpc.symm.trans hpc')
    -- the consumer owns the mutex, so no other thread is in a critical section
    have howner : m.owner = none := by
      by_contra hne
      have hm := (h.locked.owns t _ hpc).1 trivial
      exact absurd ((h.wakeful.mutex hne).symm.trans hm) nofun
    have hdrop := (Engine.potential_consumer hst hpc hstep).2 rfl
    simp only [potential, howner]
    split <;> simp only [ownerRank] <;> omega
  | consumerWait t =>
    obtain ⟨ho, he⟩ := Option.ite_none_right_eq_some.1 hs
    obtain rfl := Option.some.inj he
    simp [potential, ho, ownerRank]
  | callbackLock =>
    obtain ⟨⟨-, ho, -⟩, he⟩ := Option.ite_none_right_eq_some.1 hs
    obtain rfl := Option.some.inj he
    simp [potential, ho, ownerRank]
  | callbackEnqueue =>
    obtain ⟨ho, hmap⟩ := Option.ite_none_right_eq_some.1 hs
    obtain ⟨e, he, rfl⟩ := Option.map_eq_some_iff.1 hmap
    obtain ⟨hd, i, hc⟩ := h.enqueue ho
    obtain ⟨c, hc', hstep⟩ := Option.bind_eq_some_iff.1 he
    obtain rfl := Option.some.inj (hc.symm.trans hc')
    have hdrop := (Engine.potential_callback hst hc hstep).2 i rfl
    simp only [potential, ho]
    split <;> simp only [ownerRank] <;> omega
  | callbackSignal woken =>
    obtain ⟨ho, hmap⟩ := Option.ite_none_right_eq_some.1 hs
    obtain ⟨e, he, rfl⟩ := Option.map_eq_some_iff.1 hmap
    have hle := Engine.potential_signal hst happ he
    simp only [potential, ho, ownerRank]
    omega
  | callbackUnlock =>
    obtain ⟨ho, he⟩ := Option.ite_none_right_eq_some.1 hs
    obtain rfl := Option.some.inj he
    simp [potential, ho, ownerRank]
  | appLock =>
    obtain ⟨⟨-, ho, -⟩, he⟩ := Option.ite_none_right_eq_some.1 hs
    obtain rfl := Option.some.inj he
    simp [potential, ho, ownerRank]
  | appSignal woken =>
    obtain ⟨ho, hmap⟩ := Option.ite_none_right_eq_some.1 hs
    obtain ⟨e, he, rfl⟩ := Option.map_eq_some_iff.1 hmap
    have hle := Engine.potential_signal hst happ he
    simp only [potential, ho, ownerRank]
    omega
  | appUnlock =>
    obtain ⟨ho, hmap⟩ := Option.ite_none_right_eq_some.1 hs
    obtain ⟨e, he, rfl⟩ := Option.map_eq_some_iff.1 hmap
    have hdrop := (Engine.potential_app happ (Engine.appMoves_of_step he)).2
      (h.wakeful.app (.inr ho))
    simp only [potential, ho, ownerRank]
    omega

theorem step_engine {l : EngineStep} {e : Engine} (ha : m.Allows l)
    (he : Engine.machine.step m.engine l = some e) :
    machine.step m (.engine l) = some ⟨e, m.owner⟩ :=
  (if_pos ha).trans (congrArg (Option.map fun e => Monitor.mk e m.owner) he)

theorem consumer_progress {t : ℕ} {pc : ConsumerPc}
    (hpc : m.engine.stream.consumers[t]? = some pc) (hne : pc ≠ .done) (hw : pc ≠ .wait)
    (ho : m.owner = none) (hm : pc.Locks → m.engine.mutex = none) :
    ∃ l m', m.Due l ∧ machine.step m l = some m' := by
  obtain ⟨e, he⟩ := Engine.consumer_progress hpc hne hm
  by_cases hi : pc = .inner true
  · subst hi
    refine ⟨.consumerTest t, _, trivial, (if_pos hpc).trans (congrArg _ he)⟩
  · have hallows : m.Allows (.consumer t false) := by
      refine ⟨?_, ho ▸ nofun, fun _ _ _ => ho⟩
      rw [hpc]
      exact fun heq => hi (Option.some.inj heq)
    refine ⟨.engine (.consumer t false), _, ?_, step_engine hallows he⟩
    rw [Due, hpc]
    exact fun heq => hw (Option.some.inj heq)

/-- A thread in a critical section can leave it. -/
theorem owner_progress (h : Sound m) {o : Section} (ho : m.owner = some o) :
    ∃ l m', m.Due l ∧ machine.step m l = some m' := by
  have hmutex := h.wakeful.mutex (ho ▸ nofun)
  obtain ⟨woken, e, hsignal⟩ := m.engine.signal_progress
  cases o with
  | consumerWait t => exact ⟨.consumerWait t, _, trivial, if_pos ho⟩
  | callbackEnqueue =>
    obtain ⟨hd, i, hc⟩ := h.enqueue ho
    obtain ⟨e, he⟩ := Engine.callback_progress hc fun _ => hmutex
    exact ⟨.callbackEnqueue, _, trivial, (if_pos ho).trans (congrArg _ he)⟩
  | callbackSignal =>
    exact ⟨.callbackSignal woken, _, trivial, (if_pos ho).trans (congrArg _ hsignal)⟩
  | callbackUnlock => exact ⟨.callbackUnlock, _, trivial, if_pos ho⟩
  | appSignal => exact ⟨.appSignal woken, _, trivial, (if_pos ho).trans (congrArg _ hsignal)⟩
  | appUnlock =>
    have happ := h.wakeful.app (.inr ho)
    have he : Engine.machine.step m.engine (.app true) =
        some (m.engine.appTo m.engine.stream .joinTransfer) := by
      change m.engine.appStep true = _
      rw [Engine.appStep, happ]
      exact if_pos hmutex
    exact ⟨.appUnlock, _, trivial, (if_pos ho).trans (congrArg _ he)⟩

/-- **No deadlock**: while a stop closes the device, some thread can go on. -/
theorem progress (h : Sound m) (happ : m.engine.app.Closing) :
    ∃ l m', m.Due l ∧ machine.step m l = some m' := by
  cases ho : m.owner with
  | some o => exact h.owner_progress ho
  | none =>
  cases hm : m.engine.mutex with
  | some t =>
    obtain ⟨pc, hpc⟩ := h.locked.exists_owner t hm
    have hown := (h.locked.owns t pc hpc).2 hm
    refine consumer_progress hpc ?_ ?_ ho ?_
    · rintro rfl
      exact hown
    · rintro rfl
      exact hown
    · intro hl
      cases pc with
      | lock | relock | release => exact absurd hown id
      | _ => exact absurd hl id
  | none =>
  cases hc : m.engine.callback with
  | some c =>
    obtain ⟨hd, pc⟩ := c
    by_cases hl : pc.Locks
    · exact ⟨.callbackLock, _, trivial, if_pos ⟨hm, ho, (hd, pc), hc, hl⟩⟩
    · obtain ⟨e, he⟩ := Engine.callback_progress hc fun _ => hm
      have hallows : m.Allows (.callback true) := by
        refine ⟨by simp [InCallback, ho], fun c hc' => ?_⟩
        obtain rfl := Option.some.inj (hc.symm.trans hc')
        exact hl
      exact ⟨.engine (.callback true), _, trivial, step_engine hallows he⟩
  | none =>
  by_cases hsignal : m.engine.app = .signal
  · exact ⟨.appLock, _, trivial, if_pos ⟨hm, ho, hsignal⟩⟩
  -- the stop goes on by itself unless it waits for a thread, which then goes on
  by_cases hpump : m.engine.app = .joinTransfer ∧ m.engine.stream.transferThreadRunning = true ∧
      ¬ Joinable .done m.engine.stream.pumps m.engine.stream.transferThread
  · obtain ⟨-, hr, hj⟩ := hpump
    obtain ⟨t, hlt, ht⟩ := h.handled.pump hr
    have hpc := List.getElem?_eq_getElem hlt
    have hne : m.engine.stream.pumps[t] ≠ .done := by
      intro hdone
      refine hj ?_
      rw [Joinable, ht, Option.bind_some, hpc, hdone]
    obtain ⟨e, he⟩ := Engine.pump_progress hpc hne hc
    exact ⟨.engine (.pump t false), _, trivial, step_engine trivial he⟩
  by_cases hconsumer : m.engine.app = .joinConsumer ∧
      m.engine.stream.consumerThreadRunning = true ∧
      ¬ Joinable .done m.engine.stream.consumers m.engine.stream.consumerThread
  · obtain ⟨hjoin, hr, hj⟩ := hconsumer
    obtain ⟨t, hlt, ht⟩ := h.handled.consumer hr
    have hpc := List.getElem?_eq_getElem hlt
    have hawake := h.wakeful.awake (.inr (.inr hjoin)) _ (List.getElem_mem hlt)
    refine consumer_progress hpc ?_ hawake.1 ho fun _ => hm
    intro hdone
    refine hj ?_
    rw [Joinable, ht, Option.bind_some, hpc, hdone]
  obtain ⟨e, he⟩ := Engine.app_progress happ hc hsignal
    (fun h₁ h₂ => by_contra fun hj => hpump ⟨h₁, h₂, hj⟩)
    (fun h₁ h₂ => by_contra fun hj => hconsumer ⟨h₁, h₂, hj⟩)
  exact ⟨.engine (.app true), _, trivial, step_engine hsignal he⟩

end Sound

namespace Monitor

/-- **A stop returns.**  In a run with at most one consumer thread at a time, a stop that has
cleared `streaming` returns after at most `m.potential` steps of all threads, in whatever order they
move: until then some thread can go on by itself, without a spurious wake-up and without another
completed transfer. -/
theorem stop_terminates {m m' : Monitor} {ls ls' : List MonitorStep}
    (hone : machine.Always (fun m => AtMostOne .done m.engine.stream.consumers) initial (ls ++ ls'))
    (h : machine.run initial ls = some m)
    (hclosing : machine.Always (fun m => m.engine.app.Closing) m ls')
    (h' : machine.run m ls' = some m') :
    ls'.length + m'.potential ≤ m.potential ∧ ∃ l m'', m'.Due l ∧ machine.step m' l = some m'' := by
  obtain ⟨hone, hone'⟩ := hone.append h
  have hstep : ∀ m l m', Sound m ∧ AtMostOne .done m.engine.stream.consumers →
      AtMostOne .done m'.engine.stream.consumers → machine.step m l = some m' →
      Sound m' ∧ AtMostOne .done m'.engine.stream.consumers :=
    fun m l m' hm hone' hs => ⟨hm.1.step hm.2 hs, hone'⟩
  obtain ⟨hm, -⟩ := hone.invariant hstep ⟨.initial, hone.head⟩ h
  obtain ⟨hm', -⟩ := hone'.invariant hstep ⟨hm, hone'.head⟩ h'
  refine ⟨?_, hm'.progress (hclosing.last h')⟩
  refine (hone'.and hclosing).length_add_le (I := Sound) ?_ hm h'
  exact fun m l m' hm hP _ hs => ⟨hm.step hP.1 hs, hm.potential_step hP.2 hs⟩

/-- The steps of the wake-up until the stop has cleared `streaming`. -/
def haltSteps : List MonitorStep :=
  [.callbackSignal (some 0), .callbackUnlock] ++ List.replicate 2 (.engine (.callback true)) ++
    [.engine .callStop] ++ List.replicate 3 (.engine (.app true))

/-- The steps of that stop until its last poll. -/
def returnSteps : List MonitorStep :=
  List.replicate (18 + 2 * transferCount) (.engine (.app true)) ++
    [.appLock, .appSignal none, .appUnlock] ++ List.replicate 3 (.engine (.pump 0 false)) ++
    [.engine (.app true)] ++ List.replicate 5 (.engine (.consumer 0 false)) ++
    [.engine (.app true)]

/-- A stop that waits for a consumer that has just been woken. -/
theorem returnSteps_terminates :
    ∃ m m', machine.run initial (sleepSteps ++ haltSteps) = some m ∧
      machine.run m returnSteps = some m' ∧ m'.engine.app = .finalPoll ∧
      returnSteps.length + m'.potential ≤ m.potential ∧
      ∃ l m'', m'.Due l ∧ machine.step m' l = some m'' := by
  have hrun : (machine.run initial (sleepSteps ++ haltSteps ++ returnSteps)).map
      (fun m => m.engine.app) = some .finalPoll := by decide +kernel
  have hclosing : ∀ m ∈ machine.run initial (sleepSteps ++ haltSteps),
      machine.Always (fun m => m.engine.app.Closing) m returnSteps := by decide +kernel
  obtain ⟨m', hm', happ⟩ := Option.map_eq_some_iff.1 hrun
  obtain ⟨m, hm, hreturn⟩ := Machine.run_append.1 hm'
  exact ⟨m, m', hm, hreturn, happ,
    stop_terminates (by decide +kernel) hm (hclosing m hm) hreturn⟩

end Monitor

end AirspyHF
