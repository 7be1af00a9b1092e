import AirspyHF.Stream.Engine

/-!
# What the threads of the engine can do

One inversion for each thread: `AppMoves`, `ConsumerMoves`, `PumpMoves` and `CallbackMoves` list
every way in which it moves, with the test that led there.  `Engine.Moves` collects them; the
invariants of the engine are proved by cases on it (`Engine.moves_of_step`).
-/

namespace AirspyHF

namespace Engine

variable (s : Engine)

/-- Everything the application thread can do in a call. -/
inductive AppMoves : Engine → Prop
  | offTaken {callback ctx} (h : s.app = .startOff callback ctx) (hr : s.Returns .app) :
      AppMoves (s.appTo s.stream (.startOn callback ctx))
  | offRefused {callback ctx} (h : s.app = .startOff callback ctx) (hr : s.Returns .app) :
      AppMoves (s.appTo s.stream (.idle false))
  | onTaken {callback ctx} (h : s.app = .startOn callback ctx) (hr : s.Returns .app) :
      AppMoves (s.appTo { s.stream with ctx := ctx } (.startTest callback false))
  | onRefused {callback ctx} (h : s.app = .startOn callback ctx) (hr : s.Returns .app) :
      AppMoves (s.appTo s.stream (.idle false))
  | testStreaming {callback} (h : s.app = .startTest callback false) :
      AppMoves (s.appTo s.stream (.startTest callback true))
  | testRefused {callback half} (h : s.app = .startTest callback half) :
      AppMoves (s.appTo s.stream (.idle false))
  | accept {callback} (h : s.app = .startTest callback true)
      (hs : s.stream.stopRequested = false) :
      AppMoves (s.appTo (s.stream.accept callback) (.submit 0))
  | submit {i ok} (h : s.app = .submit i) (hi : i < transferCount)
      (hs : s.stream.Submits ok ⟨i, hi⟩) :
      AppMoves (s.appTo (s.stream.submit ⟨i, hi⟩) (.submitted i))
  | submitRefused {i} (h : s.app = .submit i) : AppMoves (s.appTo s.stream (.idle false))
  | submitDone {i} (h : s.app = .submit i) : AppMoves (s.appTo s.stream .reset)
  | counted {i} (h : s.app = .submitted i) : AppMoves (s.appTo s.stream.countUp (.submit (i + 1)))
  | reset (h : s.app = .reset) : AppMoves (s.appTo s.stream.resetQueue .createConsumer)
  | createConsumer (h : s.app = .createConsumer) :
      AppMoves (s.appTo s.stream.createConsumer .createTransfer)
  | consumerRefused (h : s.app = .createConsumer) : AppMoves (s.appTo s.stream (.idle false))
  | createTransfer (h : s.app = .createTransfer) :
      AppMoves (s.appTo s.stream.createTransfer (.idle false))
  | transferRefused (h : s.app = .createTransfer) : AppMoves (s.appTo s.stream (.idle false))
  | stopOff (h : s.app = .stopOff) (hr : s.Returns .app) : AppMoves (s.appTo s.stream .kill)
  | kill (h : s.app = .kill) (hs : s.stream.stopRequested = true) :
      AppMoves (s.appTo s.stream.clearStop .halt)
  | killSkip (h : s.app = .kill) (hs : s.stream.stopRequested = false) :
      AppMoves (s.appTo s.stream (.idle true))
  | halt (h : s.app = .halt) : AppMoves (s.appTo s.stream.halt (.cancel 0))
  | cancel {i} (h : s.app = .cancel i) (hi : i < transferCount) :
      AppMoves (s.appTo (s.stream.cancelTransfer ⟨i, hi⟩) (.cancel (i + 1)))
  | cancelDone {i} (h : s.app = .cancel i) (hi : ¬ i < transferCount) :
      AppMoves (s.appTo s.stream (.drain 0))
  | poll {n} (h : s.app = .drain n) (hn : n < transferCount) :
      AppMoves (s.appTo s.stream (.poll n))
  | drained {n} (h : s.app = .drain n)
      (hn : ¬ (n < transferCount ∧ 0 < s.stream.transferLive)) :
      AppMoves (s.appTo s.stream .signal)
  | pollReturn {n} (h : s.app = .poll n) (hr : s.Returns .app) :
      AppMoves (s.appTo s.stream (.drain (n + 1)))
  | signal (h : s.app = .signal) : AppMoves (s.appTo s.stream .joinTransfer)
  | joinTransfer (h : s.app = .joinTransfer)
      (hj : Joinable .done s.stream.pumps s.stream.transferThread) :
      AppMoves (s.appTo s.stream.joinTransfer .joinConsumer)
  | skipTransfer (h : s.app = .joinTransfer) (hr : s.stream.transferThreadRunning = false) :
      AppMoves (s.appTo s.stream .joinConsumer)
  | joinConsumer (h : s.app = .joinConsumer)
      (hj : Joinable .done s.stream.consumers s.stream.consumerThread) :
      AppMoves (s.appTo s.stream.joinConsumer .finalPoll)
  | skipConsumer (h : s.app = .joinConsumer) (hr : s.stream.consumerThreadRunning = false) :
      AppMoves (s.appTo s.stream .finalPoll)
  | stopped (h : s.app = .finalPoll) (hr : s.Returns .app) :
      AppMoves (s.appTo s.stream (.idle true))

/-- Everything consumer thread `t` can do at a program point. -/
inductive ConsumerMoves (t : ℕ) : ConsumerPc → Engine → Prop
  | lock (hm : s.mutex = none) :
      ConsumerMoves t .lock (s.consumerTo t s.stream (some t) (.outer false))
  | outerStreaming :
      ConsumerMoves t (.outer false) (s.consumerTo t s.stream s.mutex (.outer true))
  | outerEnter : ConsumerMoves t (.outer true) (s.consumerTo t s.stream s.mutex (.inner false))
  | outerLeave {half} : ConsumerMoves t (.outer half) (s.consumerTo t s.stream s.mutex .finish)
  | innerStreaming : ConsumerMoves t (.inner false) (s.consumerTo t s.stream s.mutex (.inner true))
  | innerLeave (h : s.stream.queue.receivedBufferCount = 0 → s.stream.streaming = false) :
      ConsumerMoves t (.inner false) (s.consumerTo t s.stream s.mutex (.check false))
  | innerStop (h : s.stream.stopRequested = true) :
      ConsumerMoves t (.inner true) (s.consumerTo t s.stream s.mutex (.check false))
  | innerWait : ConsumerMoves t (.inner true) (s.consumerTo t s.stream none .wait)
  | wake : ConsumerMoves t .wait (s.consumerTo t s.stream s.mutex .relock)
  | relock (hm : s.mutex = none) :
      ConsumerMoves t .relock (s.consumerTo t s.stream (some t) (.inner false))
  | checkStreaming (h : s.stream.streaming = true) :
      ConsumerMoves t (.check false) (s.consumerTo t s.stream s.mutex (.check true))
  | checkTake (h : s.stream.stopRequested = false) :
      ConsumerMoves t (.check true) (s.consumerTo t s.stream s.mutex .take)
  | checkLeave {half} : ConsumerMoves t (.check half) (s.consumerTo t s.stream s.mutex .finish)
  | take : ConsumerMoves t .take
      (s.consumerTo t { s.stream with queue := s.stream.queue.take } none
        (.process s.stream.queue.tail (s.stream.queue.receivedSamplesQueue s.stream.queue.tail)
          (s.stream.queue.droppedBuffersQueue s.stream.queue.tail)))
  | goOn {slot buffer dropped} : ConsumerMoves t (.process slot buffer dropped)
      (s.consumerTo t s.stream s.mutex (.release slot buffer))
  | giveUp {slot buffer dropped} : ConsumerMoves t (.process slot buffer dropped)
      (s.consumerTo t s.stream s.mutex (.halt slot buffer))
  | halt {slot buffer} : ConsumerMoves t (.halt slot buffer)
      (s.consumerTo t s.stream.halt s.mutex (.release slot buffer))
  | release {slot buffer} (hm : s.mutex = none) : ConsumerMoves t (.release slot buffer)
      (s.consumerTo t { s.stream with queue := s.stream.queue.release } (some t) (.outer false))
  | finish : ConsumerMoves t .finish (s.consumerTo t s.stream.halt s.mutex .unlock)
  | unlock : ConsumerMoves t .unlock (s.consumerTo t s.stream none .done)

/-- Everything transfer thread `t` can do at a program point. -/
inductive PumpMoves (t : ℕ) : PumpPc → Engine → Prop
  | goOn {half pc} : PumpMoves t (.loop half) (s.pumpTo t s.stream pc)
  | handled {pc} (hr : s.Returns (.pump t)) : PumpMoves t .handling (s.pumpTo t s.stream pc)
  | halt : PumpMoves t .halt (s.pumpTo t s.stream.halt (.loop false))
  | finish : PumpMoves t .finish (s.pumpTo t s.stream.halt .done)

/-- Everything the callback in the thread `h` can do at a program point. -/
inductive CallbackMoves (h : Handler) : CallbackPc → Engine → Prop
  | account {i complete} : CallbackMoves h (.account i complete)
      { s with stream := s.stream.countDown, callback := some (h, .test i complete false) }
  | testStreaming {i complete} (hs : s.stream.streaming = true) :
      CallbackMoves h (.test i complete false)
        { s with callback := some (h, .test i complete true) }
  | testHalted {i complete} (hs : s.stream.streaming = false) :
      CallbackMoves h (.test i complete false) { s with callback := none }
  | testStopped {i complete} (hs : s.stream.stopRequested = true) :
      CallbackMoves h (.test i complete true) { s with callback := none }
  | testReceive {i} (hs : s.stream.stopRequested = false) :
      CallbackMoves h (.test i true true) { s with callback := some (h, .lock i) }
  | testFail {i} : CallbackMoves h (.test i false true) { s with callback := some (h, .fail) }
  | receive {i} (hm : s.mutex = none) : CallbackMoves h (.lock i)
      { s with
        stream := { s.stream with queue := s.stream.queue.receive i }
        callback := some (h, .submit i) }
  | submit {i ok} (hs : s.stream.Submits ok i) : CallbackMoves h (.submit i)
      { s with stream := s.stream.submit i, callback := some (h, .countUp) }
  | submitFail {i} : CallbackMoves h (.submit i) { s with callback := some (h, .fail) }
  | countUp : CallbackMoves h .countUp { s with stream := s.stream.countUp, callback := none }
  | fail : CallbackMoves h .fail { s with stream := s.stream.halt, callback := none }

/-- **Everything a step can do.** -/
inductive Moves : EngineStep → Engine → Prop
  | callStart {callback ctx stopped} (h : s.app = .idle stopped) :
      Moves (.callStart callback ctx) (s.appTo s.stream.clearDrops (.startOff callback ctx))
  | callStop {stopped} (h : s.app = .idle stopped) :
      Moves .callStop (s.appTo s.stream.requestStop .stopOff)
  | app {ok s'} (h : AppMoves s s') : Moves (.app ok) s'
  | consumer {t ret pc s'} (hpc : s.stream.consumers[t]? = some pc) (h : ConsumerMoves s t pc s') :
      Moves (.consumer t ret) s'
  | pump {t fails pc s'} (hpc : s.stream.pumps[t]? = some pc) (h : PumpMoves s t pc s') :
      Moves (.pump t fails) s'
  | dispatch {h i complete} (hc : s.callback = none) (hh : s.Handling h)
      (hi : s.stream.InFlight i) : Moves (.dispatch h i complete) (s.dispatch h i complete)
  | callback {ok h pc s'} (hc : s.callback = some (h, pc)) (hm : CallbackMoves s h pc s') :
      Moves (.callback ok) s'

variable {s} {s' : Engine}

theorem appMoves_of_step {ok : Bool} (h : s.appStep ok = some s') : s.AppMoves s' := by
  unfold appStep at h
  split at h
  case h_1 => cases h
  case h_2 happ =>
    obtain ⟨hr, he⟩ := Option.ite_none_right_eq_some.1 h
    cases ok <;> cases he
    · exact .offRefused happ hr
    · exact .offTaken happ hr
  case h_3 happ =>
    obtain ⟨hr, he⟩ := Option.ite_none_right_eq_some.1 h
    cases ok <;> cases he
    · exact .onRefused happ hr
    · exact .onTaken happ hr
  case h_4 happ =>
    cases h
    split
    · exact .testRefused happ
    · exact .testStreaming happ
  case h_5 happ =>
    cases h
    split
    · exact .testRefused happ
    · rename_i hs
      exact .accept happ (Bool.eq_false_iff.2 hs)
  case h_6 happ =>
    split at h <;> cases h
    · split
      · rename_i hi hs
        exact .submit happ hi hs
      · exact .submitRefused happ
    · exact .submitDone happ
  case h_7 happ => cases h; exact .counted happ
  case h_8 happ => cases h; exact .reset happ
  case h_9 happ =>
    cases h
    cases ok
    · exact .consumerRefused happ
    · exact .createConsumer happ
  case h_10 happ =>
    cases h
    cases ok
    · exact .transferRefused happ
    · exact .createTransfer happ
  case h_11 happ =>
    obtain ⟨hr, he⟩ := Option.ite_none_right_eq_some.1 h
    cases he
    exact .stopOff happ hr
  case h_12 happ =>
    cases h
    split
    · rename_i hs
      exact .kill happ hs
    · rename_i hs
      exact .killSkip happ (Bool.eq_false_iff.2 hs)
  case h_13 happ => cases h; exact .halt happ
  case h_14 happ =>
    split at h <;> cases h <;> rename_i hi
    · exact .cancel happ hi
    · exact .cancelDone happ hi
  case h_15 happ =>
    cases h
    split
    · rename_i hn
      exact .poll happ hn.1
    · rename_i hn
      exact .drained happ hn
  case h_16 happ =>
    obtain ⟨hr, he⟩ := Option.ite_none_right_eq_some.1 h
    cases he
    exact .pollReturn happ hr
  case h_17 happ =>
    obtain ⟨-, he⟩ := Option.ite_none_right_eq_some.1 h
    cases he
    exact .signal happ
  case h_18 happ =>
    split at h
    · obtain ⟨hj, he⟩ := Option.ite_none_right_eq_some.1 h
      cases he
      exact .joinTransfer happ hj
    · rename_i hr
      cases h
      exact .skipTransfer happ (Bool.eq_false_iff.2 hr)
  case h_19 happ =>
    split at h
    · obtain ⟨hj, he⟩ := Option.ite_none_right_eq_some.1 h
      cases he
      exact .joinConsumer happ hj
    · rename_i hr
      cases h
      exact .skipConsumer happ (Bool.eq_false_iff.2 hr)
  case h_20 happ =>
    obtain ⟨hr, he⟩ := Option.ite_none_right_eq_some.1 h
    cases he
    exact .stopped happ hr

theorem consumerMoves_of_step {t : ℕ} {ret : Bool} {pc : ConsumerPc}
    (h : s.consumerStep t ret pc = some s') : s.ConsumerMoves t pc s' := by
  unfold consumerStep at h
  split at h
  case h_1 =>
    obtain ⟨hm, he⟩ := Option.ite_none_right_eq_some.1 h
    cases he
    exact .lock hm
  case h_2 =>
    cases h
    split
    · exact .outerStreaming
    · exact .outerLeave
  case h_3 =>
    cases h
    split
    · exact .outerLeave
    · exact .outerEnter
  case h_4 =>
    cases h
    split
    · exact .innerStreaming
    · rename_i hs
      exact .innerLeave fun hc => Bool.eq_false_iff.2 fun hst => hs ⟨hc, hst⟩
  case h_5 =>
    cases h
    split
    · rename_i hs
      exact .innerStop hs
    · exact .innerWait
  case h_6 => cases h; exact .wake
  case h_7 =>
    obtain ⟨hm, he⟩ := Option.ite_none_right_eq_some.1 h
    cases he
    exact .relock hm
  case h_8 =>
    cases h
    split
    · rename_i hs
      exact .checkStreaming hs
    · exact .checkLeave
  case h_9 =>
    cases h
    split
    · exact .checkLeave
    · rename_i hs
      exact .checkTake (Bool.eq_false_iff.2 hs)
  case h_10 => cases h; exact .take
  case h_11 =>
    cases h
    cases ret
    · exact .goOn
    · exact .giveUp
  case h_12 => cases h; exact .halt
  case h_13 =>
    obtain ⟨hm, he⟩ := Option.ite_none_right_eq_some.1 h
    cases he
    exact .release hm
  case h_14 => cases h; exact .finish
  case h_15 => cases h; exact .unlock
  case h_16 => cases h

theorem pumpMoves_of_step {t : ℕ} {fails : Bool} {pc : PumpPc}
    (h : s.pumpStep t fails pc = some s') : s.PumpMoves t pc s' := by
  unfold pumpStep at h
  split at h
  case h_1 => cases h; exact .goOn
  case h_2 => cases h; exact .goOn
  case h_3 =>
    obtain ⟨hr, he⟩ := Option.ite_none_right_eq_some.1 h
    cases he
    exact .handled hr
  case h_4 => cases h; exact .halt
  case h_5 => cases h; exact .finish
  case h_6 => cases h

theorem callbackMoves_of_step {h : Handler} {ok : Bool} {pc : CallbackPc}
    (hs : s.callbackStep h ok pc = some s') : s.CallbackMoves h pc s' := by
  unfold callbackStep at hs
  split at hs
  case h_1 => cases hs; exact .account
  case h_2 =>
    cases hs
    split
    · rename_i hst
      exact .testStreaming hst
    · rename_i hst
      exact .testHalted (Bool.eq_false_iff.2 hst)
  case h_3 complete =>
    cases hs
    split
    · rename_i hsr
      exact .testStopped hsr
    · rename_i hsr
      cases complete
      · exact .testFail
      · exact .testReceive (Bool.eq_false_iff.2 hsr)
  case h_4 =>
    obtain ⟨hm, he⟩ := Option.ite_none_right_eq_some.1 hs
    cases he
    exact .receive hm
  case h_5 =>
    cases hs
    split
    · rename_i hsub
      exact .submit hsub
    · exact .submitFail
  case h_6 => cases hs; exact .countUp
  case h_7 => cases hs; exact .fail

theorem moves_of_step {l : EngineStep} (h : machine.step s l = some s') : s.Moves l s' := by
  cases l with
  | callStart callback ctx =>
    simp only [machine] at h
    split at h
    · rename_i happ
      cases h
      exact .callStart happ
    · cases h
  | callStop =>
    simp only [machine] at h
    split at h
    · rename_i happ
      cases h
      exact .callStop happ
    · cases h
  | app ok => exact .app (appMoves_of_step h)
  | consumer t ret =>
    obtain ⟨pc, hpc, hs⟩ := Option.bind_eq_some_iff.1 h
    exact .consumer hpc (consumerMoves_of_step hs)
  | pump t fails =>
    obtain ⟨pc, hpc, hs⟩ := Option.bind_eq_some_iff.1 h
    exact .pump hpc (pumpMoves_of_step hs)
  | dispatch hd i complete =>
    obtain ⟨⟨hc, hh, hi⟩, he⟩ := Option.ite_none_right_eq_some.1 h
    cases he
    exact .dispatch hc hh hi
  | callback ok =>
    obtain ⟨⟨hd, pc⟩, hc, hs⟩ := Option.bind_eq_some_iff.1 h
    exact .callback hc (callbackMoves_of_step hs)

/-! ### What the threads leave alone -/

theorem ConsumerMoves.frame {t : ℕ} {pc : ConsumerPc} (h : s.ConsumerMoves t pc s') :
    pc ≠ .done ∧ ∃ streaming queue mutex pc', s' =
      s.consumerTo t { s.stream with streaming := streaming, queue := queue } mutex pc' := by
  cases h <;> exact ⟨nofun, _, _, _, _, rfl⟩

/-- A transfer thread changes the streaming flag only, and handles events until no callback runs
in it. -/
theorem PumpMoves.frame {t : ℕ} {pc : PumpPc} (h : s.PumpMoves t pc s') :
    pc ≠ .done ∧ (pc = .handling → s.Returns (.pump t)) ∧
      ∃ streaming pc', s' = s.pumpTo t { s.stream with streaming := streaming } pc' := by
  cases h with
  | handled hr => exact ⟨nofun, fun _ => hr, _, _, rfl⟩
  | _ => exact ⟨nofun, nofun, _, _, rfl⟩

/-- A callback changes the streaming flag, the queue and its transfer only, and stays in its
thread. -/
theorem CallbackMoves.frame {h : Handler} {pc : CallbackPc} (hm : s.CallbackMoves h pc s') :
    ∃ streaming queue status live callback, s' =
      { s with
        stream :=
          { s.stream with
            streaming := streaming
            queue := queue
            transferStatus := status
            transferLive := live }
        callback := callback } ∧ ∀ h' pc', callback = some (h', pc') → h' = h := by
  cases hm <;> refine ⟨_, _, _, _, _, rfl, ?_⟩ <;> simp +contextual [eq_comm]

end Engine

theorem Stream.cancelTransfer_eq (s : Stream) (i : Fin transferCount) :
    ∃ status, s.cancelTransfer i = { s with transferStatus := status } := by
  unfold cancelTransfer
  split <;> exact ⟨_, rfl⟩

end AirspyHF
