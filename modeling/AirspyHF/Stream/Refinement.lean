import AirspyHF.Stream.Session
import AirspyHF.Stream.Threads

/-!
# The sessions of the engine

`Session` describes one session by the steps that touch the ring, and `Engine` by every shared
access of every thread, over any number of sessions.  From the moment at which a start has emptied
the ring until a stop clears `stop_requested`, the engine refines the machine of the session
(`Engine.session_of_run`): what is proved of every session holds of the engine.

The two differ in where a callback tests the flags.  The engine reads `streaming` and
`stop_requested` one after the other, the session both at once, when the engine reads the first.  A
stop requested in between turns the callback back in the engine only; the session keeps it pending,
which does no harm because no other callback gets past the test any more.
-/

namespace AirspyHF

/-- Parts of the calls in which a session may be under way. -/
def AppPc.InSession : AppPc → Prop
  | .createConsumer | .createTransfer | .idle _ | .stopOff | .kill => True
  | _ => False

/-- What the consumer is doing at a program point. -/
def ConsumerPc.phase : ConsumerPc → Phase
  | .process slot buffer dropped => .process slot buffer dropped
  | .halt slot buffer | .release slot buffer => .release slot buffer
  | _ => .idle

/-- The transfer whose callback has found `streaming` raised and has not reached the ring. -/
def CallbackPc.pending : CallbackPc → Option (Fin transferCount)
  | .test i true true | .lock i => some i
  | _ => none

namespace Engine

variable (s : Engine)

/-- The step leaves the session under way: no start is called, and the request of a stop is not
cleared. -/
def Continues : EngineStep → Prop
  | .callStart .. => False
  | .app _ => s.app ≠ .kill
  | _ => True

/-- The consumer thread is in the phase `p`, or none is running. -/
structure PhaseIs (p : Phase) : Prop where
  running : ∀ (t : ℕ) (pc : ConsumerPc), s.stream.consumers[t]? = some pc → pc ≠ .done →
    p = pc.phase
  exited : s.ConsumersDone → p = .idle

/-- The callback is about to bring transfer `p` to the ring, unless a stop is requested. -/
structure PendingIs (p : Option (Fin transferCount)) : Prop where
  current : s.stream.stopRequested = false → p = s.callback.bind fun c => c.2.pending
  locked : ∀ h i, s.callback = some (h, .lock i) → p = some i

/-- The session `σ` describes the engine. -/
structure Describes (σ : Session) : Prop where
  threads : Threads s
  counted : Counted s
  inSession : s.app.InSession
  queue : σ.queue = s.stream.queue
  streaming : σ.streaming = s.stream.streaming
  stopRequested : σ.stopRequested = s.stream.stopRequested
  phase : s.PhaseIs σ.phase
  pending : s.PendingIs σ.pending

end Engine

/-! ### The parts of the relation -/

namespace Engine

variable {s s' : Engine} {σ : Session}

theorem startsQuietly_of_inSession (h : s.app.InSession) (l : EngineStep) : s.StartsQuietly l := by
  unfold StartsQuietly
  split
  · split
    · rename_i happ
      rw [happ] at h
      exact h.elim
    · trivial
  · trivial

theorem noStaleTest_of_continues {l : EngineStep} (h : s.Continues l) : s.NoStaleTest l := by
  cases l with
  | app => exact fun happ => absurd happ h
  | _ => trivial

/-- The consumer thread moves. -/
theorem PhaseIs.move (ht : Threads s) {t : ℕ} {pc : ConsumerPc}
    (hpc : s.stream.consumers[t]? = some pc) (hne : pc ≠ .done) {stream : Stream}
    {mutex : Option ℕ} {pc' : ConsumerPc} {p : Phase} (hp : p = pc'.phase)
    (hcs : stream.consumers = s.stream.consumers) :
    (s.consumerTo t stream mutex pc').PhaseIs p where
  running t' pc'' ht' hne' := by
    change (stream.consumers.set t pc')[t']? = some pc'' at ht'
    rw [hcs] at ht'
    by_cases he : t = t'
    · subst he
      rw [List.getElem?_set_self (List.getElem?_eq_some_iff.1 hpc).1] at ht'
      rw [hp, Option.some.inj ht']
    · rw [List.getElem?_set_ne he] at ht'
      exact absurd (ht.consumer.atMostOne.eq_done_of_ne hpc hne ht' he) hne'
  exited hd := by
    have hlt : t < stream.consumers.length := hcs ▸ (List.getElem?_eq_some_iff.1 hpc).1
    rw [hp, hd pc' (List.mem_set hlt pc')]
    rfl

theorem PhaseIs.create {p : Phase} (h : s.PhaseIs p) (hd : s.ConsumersDone) (pc : AppPc) :
    (s.appTo s.stream.createConsumer pc).PhaseIs p where
  running t pc' ht hne := by
    rw [h.exited hd]
    obtain ⟨hlast, -⟩ := OneHandle.create hd .lock t pc' ht hne
    change (s.stream.consumers ++ [.lock])[t]? = some pc' at ht
    obtain rfl := Option.some.inj hlast
    rw [List.getElem?_concat_length] at ht
    rw [← Option.some.inj ht]
    rfl
  exited _ := h.exited hd

theorem PhaseIs.congr {p : Phase} (h : s.PhaseIs p)
    (hcs : s'.stream.consumers = s.stream.consumers) : s'.PhaseIs p where
  running t pc ht := h.running t pc (hcs ▸ ht)
  exited hd := h.exited fun pc hpc => hd pc (hcs ▸ hpc)

theorem PendingIs.congr {p : Option (Fin transferCount)} (h : s.PendingIs p)
    (hcb : s'.callback = s.callback) (hr : s'.stream.stopRequested = s.stream.stopRequested) :
    s'.PendingIs p where
  current hs := hcb ▸ h.current (hr ▸ hs)
  locked hd i hc := h.locked hd i (hcb ▸ hc)

theorem PendingIs.leave {p : Option (Fin transferCount)} (h : s.PendingIs p)
    (hp : s.stream.stopRequested = false → (s.callback.bind fun c => c.2.pending) = none)
    (hr : s'.stream.stopRequested = s.stream.stopRequested)
    (hp' : (s'.callback.bind fun c => c.2.pending) = none) : s'.PendingIs p where
  current hs := (h.current (hr ▸ hs)).trans ((hp (hr ▸ hs)).trans hp'.symm)
  locked hd i hc := by
    rw [hc] at hp'
    cases hp'

namespace Describes

theorem silent (h : s.Describes σ) (ht : Threads s') (hc : Counted s') (happ : s'.app.InSession)
    (hq : s'.stream.queue = s.stream.queue) (hs : s'.stream.streaming = s.stream.streaming)
    (hr : s'.stream.stopRequested = s.stream.stopRequested) (hp : s'.PhaseIs σ.phase)
    (hpend : s'.PendingIs σ.pending) :
    ∃ ls σ', Session.machine.run σ ls = some σ' ∧ s'.Describes σ' :=
  ⟨[], σ, rfl, ht, hc, happ, h.queue.trans hq.symm, h.streaming.trans hs.symm,
    h.stopRequested.trans hr.symm, hp, hpend⟩

theorem halts (h : s.Describes σ) (ht : Threads s') (hc : Counted s') (happ : s'.app.InSession)
    (hq : s'.stream.queue = s.stream.queue) (hs : s'.stream.streaming = false)
    (hr : s'.stream.stopRequested = s.stream.stopRequested) (hp : s'.PhaseIs σ.phase)
    (hpend : s'.PendingIs σ.pending) :
    ∃ ls σ', Session.machine.run σ ls = some σ' ∧ s'.Describes σ' :=
  ⟨[.halt], { σ with streaming := false }, rfl, ht, hc, happ, h.queue.trans hq.symm, hs.symm,
    h.stopRequested.trans hr.symm, hp, hpend⟩

theorem app {ok : Bool} (h : s.Describes σ) (hg : s.Continues (.app ok)) (ht : Threads s')
    (hc : Counted s') (hm : s.AppMoves s') :
    ∃ ls σ', Session.machine.run σ ls = some σ' ∧ s'.Describes σ' := by
  cases hm with
  | createConsumer happ =>
    exact h.silent ht hc trivial rfl rfl rfl
      (h.phase.create (h.threads.consumersDone (happ ▸ trivial)) _) (h.pending.congr rfl rfl)
  | consumerRefused | createTransfer | transferRefused | stopOff =>
    exact h.silent ht hc trivial rfl rfl rfl (h.phase.congr rfl) (h.pending.congr rfl rfl)
  -- the guard ends the session here
  | kill happ | killSkip happ => exact absurd happ hg
  | offTaken happ | offRefused happ | onTaken happ | onRefused happ | testStreaming happ
  | testRefused happ | accept happ | submit happ | submitRefused happ | submitDone happ
  | counted happ | reset happ | halt happ | cancel happ | cancelDone happ | poll happ
  | drained happ | pollReturn happ | signal happ | joinTransfer happ | skipTransfer happ
  | joinConsumer happ | skipConsumer happ | stopped happ =>
    have hin := h.inSession
    rw [happ] at hin
    exact hin.elim

theorem consumerMove (h : s.Describes σ) {t : ℕ} {pc : ConsumerPc} (ht : Threads s')
    (hc : Counted s') (hpc : s.stream.consumers[t]? = some pc) (hm : s.ConsumerMoves t pc s') :
    ∃ ls σ', Session.machine.run σ ls = some σ' ∧ s'.Describes σ' := by
  have hne := hm.frame.1
  have hphase := h.phase.running t pc hpc hne
  cases hm with
  | lock | outerStreaming | outerEnter | outerLeave | innerStreaming | innerLeave | innerStop
  | innerWait | wake | relock | checkStreaming | checkTake | checkLeave | unlock =>
    exact h.silent ht hc h.inSession rfl rfl rfl (.move h.threads hpc hne hphase rfl)
      (h.pending.congr rfl rfl)
  | take =>
    have hcount : σ.queue.receivedBufferCount ≠ 0 := h.queue ▸ (h.counted.consumer t _ hpc).2
    refine ⟨[.take], σ.take, Session.run_take hphase hcount, ht, hc, h.inSession,
      congrArg Queue.take h.queue, h.streaming, h.stopRequested,
      .move h.threads hpc hne ?_ rfl, h.pending.congr rfl rfl⟩
    rw [← h.queue]
    rfl
  -- whatever the user callback returns, the block was passed to it
  | goOn | giveUp =>
    exact ⟨[.deliver], _, Session.run_deliver hphase, ht, hc, h.inSession, h.queue, h.streaming,
      h.stopRequested, .move h.threads hpc hne rfl rfl, h.pending.congr rfl rfl⟩
  | halt =>
    exact h.halts ht hc h.inSession rfl rfl rfl (.move h.threads hpc hne hphase rfl)
      (h.pending.congr rfl rfl)
  | release =>
    exact ⟨[.release], _, Session.run_release hphase, ht, hc, h.inSession,
      congrArg Queue.release h.queue, h.streaming, h.stopRequested,
      .move h.threads hpc hne rfl rfl, h.pending.congr rfl rfl⟩
  | finish =>
    exact h.halts ht hc h.inSession rfl rfl rfl (.move h.threads hpc hne hphase rfl)
      (h.pending.congr rfl rfl)

theorem pumpMove (h : s.Describes σ) {t : ℕ} {pc : PumpPc} (ht : Threads s') (hc : Counted s')
    (hm : s.PumpMoves t pc s') :
    ∃ ls σ', Session.machine.run σ ls = some σ' ∧ s'.Describes σ' := by
  cases hm with
  | goOn | handled =>
    exact h.silent ht hc h.inSession rfl rfl rfl (h.phase.congr rfl) (h.pending.congr rfl rfl)
  | halt | finish =>
    exact h.halts ht hc h.inSession rfl rfl rfl (h.phase.congr rfl) (h.pending.congr rfl rfl)

theorem dispatch (h : s.Describes σ) {hd : Handler} {i : Fin transferCount} {complete : Bool}
    (ht : Threads (s.dispatch hd i complete)) (hc : Counted (s.dispatch hd i complete))
    (hnone : s.callback = none) :
    ∃ ls σ', Session.machine.run σ ls = some σ' ∧ (s.dispatch hd i complete).Describes σ' :=
  h.silent ht hc h.inSession rfl rfl rfl (h.phase.congr rfl)
    (h.pending.leave (fun _ => by rw [hnone]; rfl) rfl rfl)

/-- A callback reads `streaming`: if the transfer is complete and no stop requested, this is the
moment at which the session tests the flags. -/
theorem testStreaming (h : s.Describes σ) {hd : Handler} {i : Fin transferCount} {complete : Bool}
    (ht : Threads { s with callback := some (hd, .test i complete true) })
    (hc : Counted { s with callback := some (hd, .test i complete true) })
    (hcb : s.callback = some (hd, .test i complete false)) (hs : s.stream.streaming = true) :
    ∃ ls σ', Session.machine.run σ ls = some σ' ∧
      Describes { s with callback := some (hd, .test i complete true) } σ' := by
  have hcur := h.pending.current
  rw [hcb] at hcur
  cases complete with
  | false =>
    exact h.silent ht hc h.inSession rfl rfl rfl (h.phase.congr rfl)
      (h.pending.leave (fun _ => by rw [hcb]; rfl) rfl rfl)
  | true =>
    cases hr : s.stream.stopRequested with
    | true =>
      exact h.silent ht hc h.inSession rfl rfl rfl (h.phase.congr rfl)
        ⟨fun hr' => absurd (hr.symm.trans hr') nofun, nofun⟩
    | false =>
      have hlive : σ.Live := ⟨h.streaming.trans hs, h.stopRequested.trans hr⟩
      exact ⟨[.arrive i], _, Session.run_arrive i (hcur hr), ht, hc, h.inSession, h.queue,
        h.streaming, h.stopRequested, h.phase.congr rfl, fun _ => if_pos hlive, nofun⟩

theorem callbackMove (h : s.Describes σ) {hd : Handler} {pc : CallbackPc} (ht : Threads s')
    (hc : Counted s') (hcb : s.callback = some (hd, pc)) (hm : s.CallbackMoves hd pc s') :
    ∃ ls σ', Session.machine.run σ ls = some σ' ∧ s'.Describes σ' := by
  cases hm with
  | @account i complete =>
    refine h.silent ht hc h.inSession rfl rfl rfl (h.phase.congr rfl)
      (h.pending.leave (fun _ => by rw [hcb]; rfl) rfl ?_)
    cases complete <;> rfl
  | testStreaming hs => exact h.testStreaming ht hc hcb hs
  | @testHalted i complete =>
    refine h.silent ht hc h.inSession rfl rfl rfl (h.phase.congr rfl)
      (h.pending.leave (fun _ => ?_) rfl rfl)
    rw [hcb]
    cases complete <;> rfl
  | testStopped hr =>
    exact h.silent ht hc h.inSession rfl rfl rfl (h.phase.congr rfl)
      (h.pending.leave (fun hr' => absurd (hr.symm.trans hr') nofun) rfl rfl)
  | @testReceive i hr =>
    have hpend : σ.pending = some i := by
      rw [h.pending.current hr, hcb]
      rfl
    refine h.silent ht hc h.inSession rfl rfl rfl (h.phase.congr rfl) ⟨fun _ => hpend, ?_⟩
    rintro hd' j hj
    cases hj
    exact hpend
  | testFail =>
    exact h.silent ht hc h.inSession rfl rfl rfl (h.phase.congr rfl)
      (h.pending.leave (fun _ => by rw [hcb]; rfl) rfl rfl)
  | @receive i hm =>
    have hrun := Session.run_receive (h.pending.locked hd i hcb)
    obtain ⟨enqueued, pendingDrops, he⟩ := σ.receive_eq i
    rw [he] at hrun
    exact ⟨[.receive], _, hrun, ht, hc, h.inSession, congrArg (·.receive i) h.queue, h.streaming,
      h.stopRequested, h.phase.congr rfl, fun _ => rfl, nofun⟩
  | submit | submitFail | countUp =>
    exact h.silent ht hc h.inSession rfl rfl rfl (h.phase.congr rfl)
      (h.pending.leave (fun _ => by rw [hcb]; rfl) rfl rfl)
  | fail =>
    exact h.halts ht hc h.inSession rfl rfl rfl (h.phase.congr rfl)
      (h.pending.leave (fun _ => by rw [hcb]; rfl) rfl rfl)

/-- **One step** of the engine that leaves the session under way is described by the session. -/
theorem step {l : EngineStep} (h : s.Describes σ) (hg : s.Continues l)
    (hst : machine.step s l = some s') :
    ∃ ls σ', Session.machine.run σ ls = some σ' ∧ s'.Describes σ' := by
  have hquiet := startsQuietly_of_inSession h.inSession l
  have ht := h.threads.step hquiet hst
  have hc := h.counted.step h.threads hquiet (noStaleTest_of_continues hg) hst
  cases moves_of_step hst with
  | callStart => exact hg.elim
  | callStop =>
    exact ⟨[.requestStop], _, rfl, ht, hc, trivial, h.queue, h.streaming, rfl, h.phase.congr rfl,
      nofun, h.pending.locked⟩
  | app hm => exact h.app hg ht hc hm
  | consumer hpc hm => exact h.consumerMove ht hc hpc hm
  | pump hpc hm => exact h.pumpMove ht hc hm
  | dispatch hnone => exact h.dispatch ht hc hnone
  | callback hcb hm => exact h.callbackMove ht hc hcb hm

end Describes

end Engine

/-! ### Where a session starts -/

/-- A start was admitted and has not created the consumer thread. -/
def AppPc.Starting : AppPc → Prop
  | .submit _ | .submitted _ | .reset | .createConsumer => True
  | _ => False

theorem AppPc.Starting.threadsDone {pc : AppPc} (h : pc.Starting) :
    pc.ConsumersDone ∧ pc.PumpsDone ∧ ¬ pc.Handles := by
  cases pc with
  | submit | submitted | reset | createConsumer => exact ⟨trivial, trivial, id⟩
  | _ => exact h.elim

/-- What a start relies on while no thread is running. -/
structure Started (s : Engine) : Prop where
  live : s.app.Starting → s.stream.streaming = true ∧ s.stream.stopRequested = false
  empty : s.app = .createConsumer →
    s.stream.queue.receivedBufferCount = 0 ∧ s.stream.queue.head = s.stream.queue.tail

namespace Started

open Engine

variable {s s' : Engine}

theorem initial : Started .initial := ⟨nofun, nofun⟩

theorem app (h : Started s) (hm : s.AppMoves s') : Started s' := by
  cases hm with
  | accept happ hs => exact ⟨fun _ => ⟨rfl, hs⟩, nofun⟩
  | submit happ | submitDone happ | counted happ =>
    exact ⟨fun _ => h.live (happ ▸ trivial), nofun⟩
  | reset happ => exact ⟨fun _ => h.live (happ ▸ trivial), fun _ => ⟨rfl, rfl⟩⟩
  | _ => exact ⟨nofun, nofun⟩

theorem of_not_starting (happ : ¬ s.app.Starting) : Started s :=
  ⟨fun h => absurd h happ, fun h => absurd (h ▸ trivial) happ⟩

theorem step {l : EngineStep} (h : Started s) (ht : Threads s)
    (hs : machine.step s l = some s') : Started s' := by
  cases moves_of_step hs with
  | callStart | callStop => exact ⟨nofun, nofun⟩
  | app hm => exact h.app hm
  | consumer hpc hm =>
    obtain ⟨hne, streaming, queue, mutex, pc', rfl⟩ := hm.frame
    apply of_not_starting
    intro happ
    exact hne (ht.consumersDone happ.threadsDone.1 _ (List.mem_of_getElem? hpc))
  | pump hpc hm =>
    obtain ⟨hne, -, streaming, pc', rfl⟩ := hm.frame
    apply of_not_starting
    intro happ
    exact hne (ht.pumpsDone happ.threadsDone.2.1 _ (List.mem_of_getElem? hpc))
  | dispatch => exact ⟨h.live, h.empty⟩
  | callback hc hm =>
    obtain ⟨streaming, queue, status, live, callback, rfl, -⟩ := hm.frame
    apply of_not_starting
    intro happ
    obtain ⟨-, hpumps, hhandles⟩ := happ.threadsDone
    exact absurd (hc.symm.trans (ht.callback_eq_none hpumps hhandles)) nofun

end Started

/-! ### Runs -/

namespace Engine

variable {s s' : Engine}

theorem describes_initial (ht : Threads s) (hc : Counted s) (hst : Started s)
    (happ : s.app = .createConsumer) : s.Describes (.initial s.stream.queue) := by
  have hstarting : s.app.Starting := happ ▸ trivial
  obtain ⟨hconsumers, hpumps, hhandles⟩ := hstarting.threadsDone
  obtain ⟨hs, hr⟩ := hst.live hstarting
  have hnone := ht.callback_eq_none hpumps hhandles
  refine ⟨ht, hc, happ ▸ trivial, rfl, hs.symm, hr.symm, ⟨?_, fun _ => rfl⟩, ⟨fun _ => ?_, ?_⟩⟩
  · intro t pc hpc hne
    exact absurd (ht.consumersDone hconsumers pc (List.mem_of_getElem? hpc)) hne
  · rw [hnone]
    rfl
  · rw [hnone]
    nofun

theorem started_of_run {steps : List EngineStep} (ho : machine.Meets Orderly initial steps)
    (hs : machine.run initial steps = some s) : Threads s ∧ Counted s ∧ Started s :=
  ho.invariant (I := fun s => Threads s ∧ Counted s ∧ Started s)
    (fun _ _ _ ⟨ht, hc, hst⟩ ⟨hq, hn⟩ hstep =>
      ⟨ht.step hq hstep, hc.step ht hq hn hstep, hst.step ht hstep⟩)
    ⟨.initial, .initial, .initial⟩ hs

/-- The engine refines the machine of a session while the session is under way. -/
theorem refines_session : machine.Refines Session.machine Describes Continues :=
  fun _ _ _ _ h hg hs => h.step hg hs

/-- **A session of the engine is a session.**  Whatever the threads do from the moment at which a
start has emptied the ring, the session machine does it from the same ring, until the next start
is called or a stop clears its request. -/
theorem session_of_run {steps steps' : List EngineStep} {s₀ : Engine}
    (ho : machine.Meets Orderly initial steps) (h₀ : machine.run initial steps = some s₀)
    (happ : s₀.app = .createConsumer) (hg : machine.Meets Continues s₀ steps')
    (hs : machine.run s₀ steps' = some s) :
    ∃ ls σ, Session.machine.run (.initial s₀.stream.queue) ls = some σ ∧ s.Describes σ := by
  obtain ⟨ht, hc, hst⟩ := started_of_run ho h₀
  exact refines_session.run (describes_initial ht hc hst happ) hg hs

/-! ### Buffers -/

/-- A step moves buffers, if any, between the ring and the transfers. -/
theorem place_of_step {l : EngineStep} (hs : machine.step s l = some s') :
    ∃ π : Equiv.Perm Place, s'.stream.queue.place = s.stream.queue.place ∘ π := by
  cases moves_of_step hs with
  | callStart | callStop | dispatch => exact ⟨Equiv.refl _, rfl⟩
  | app hm =>
    cases hm with
    | cancel happ hi =>
      obtain ⟨status, he⟩ := s.stream.cancelTransfer_eq ⟨_, hi⟩
      rw [he]
      exact ⟨Equiv.refl _, rfl⟩
    | _ => exact ⟨Equiv.refl _, rfl⟩
  | consumer hpc hm => cases hm <;> exact ⟨Equiv.refl _, rfl⟩
  | pump hpc hm => cases hm <;> exact ⟨Equiv.refl _, rfl⟩
  | callback hc hm =>
    cases hm with
    | @receive i => exact s.stream.queue.place_receive i
    | _ => exact ⟨Equiv.refl _, rfl⟩

/-- **No buffer is lost or shared**, over any number of sessions: the ring and the transfers hold
the buffers that were allocated, each in one place. -/
theorem place_of_run {steps : List EngineStep} (hs : machine.run initial steps = some s) :
    ∃ π : Equiv.Perm Place, s.stream.queue.place = Queue.initial.place ∘ π := by
  refine Machine.run_invariant (I := fun s =>
    ∃ π : Equiv.Perm Place, s.stream.queue.place = Queue.initial.place ∘ π) ?_
    ⟨Equiv.refl _, rfl⟩ hs
  rintro s l s' ⟨π, hπ⟩ hst
  obtain ⟨π', hπ'⟩ := place_of_step hst
  exact ⟨π'.trans π, by rw [hπ', hπ]; rfl⟩

/-- **The buffer in process is left alone**: while the consumer converts it, it stays in its slot
and no transfer has it. -/
theorem buffer_of_process {steps steps' : List EngineStep} {s₀ : Engine}
    (ho : machine.Meets Orderly initial steps) (h₀ : machine.run initial steps = some s₀)
    (happ : s₀.app = .createConsumer) (hg : machine.Meets Continues s₀ steps')
    (hs : machine.run s₀ steps' = some s) {t : ℕ} {slot : Fin rawBufferCount} {buffer : Buffer}
    {dropped : UInt32} (hpc : s.stream.consumers[t]? = some (.process slot buffer dropped)) :
    s.stream.queue.receivedSamplesQueue slot = buffer ∧
      ∀ i, s.stream.queue.transferBuffer i ≠ buffer := by
  obtain ⟨-, -, hst⟩ := started_of_run ho h₀
  obtain ⟨hcount, hhead⟩ := hst.empty happ
  obtain ⟨π, hπ⟩ := place_of_run h₀
  have hinj : Function.Injective s₀.stream.queue.place :=
    hπ ▸ Session.injective_place_initial.comp π.injective
  obtain ⟨ls, σ, hrun, hd⟩ := session_of_run ho h₀ happ hg hs
  obtain ⟨k, hsafe⟩ := Session.safe_of_reachable hcount hhead hinj ⟨ls, hrun⟩
  have hphase : σ.phase.inProcess = some (slot, buffer) := by
    rw [hd.phase.running t _ hpc nofun]
    rfl
  obtain ⟨-, hslot, -⟩ := hsafe.held slot buffer hphase
  rw [← hd.queue, ← hslot]
  exact ⟨rfl, fun i => (hsafe.ne hinj slot i).symm⟩

end Engine

end AirspyHF
