import AirspyHF.Stream.Termination

/-!
# The ring has one user at a time

The ring of received buffers is shared by the consumer thread, the callback and a start.  The
consumer and the callback use it under the mutex.  A start does not take the mutex: `airspyhf_start`
clears the counts of dropped buffers at once, and `create_io_threads` empties the ring before there
are threads.  That is safe as long as an application starts only when the threads of the session
before have exited, as they have after `airspyhf_stop`; then no access to the ring has company, and
nothing else changes it (`Engine.ring_exclusive`).
-/

namespace AirspyHF

/-- A start has been called, and has not been admitted. -/
def AppPc.Asking : AppPc → Prop
  | .startOff .. | .startOn .. | .startTest .. => True
  | _ => False

/-- The next step of the consumer looks at the ring or changes it. -/
def ConsumerPc.UsesRing : ConsumerPc → Prop
  | .inner false | .take | .release .. => True
  | _ => False

namespace Engine

variable (s : Engine)

/-- No thread of a session before is left when the application starts. -/
def StartsAlone : EngineStep → Prop
  | .callStart .. => s.ConsumersDone ∧ s.PumpsDone
  | _ => True

instance : (l : EngineStep) → Decidable (s.StartsAlone l)
  | .callStart .. => inferInstanceAs (Decidable (_ ∧ _))
  | .callStop | .app _ | .consumer .. | .pump .. | .dispatch .. | .callback _ => .isTrue trivial

/-- The step looks at the ring or changes it. -/
def UsesRing : EngineStep → Prop
  | .callStart .. => True
  | .app _ => s.app = .reset
  | .consumer t _ => ∃ pc, s.stream.consumers[t]? = some pc ∧ pc.UsesRing
  | .callback _ => ∃ h i, s.callback = some (h, .lock i)
  | _ => False

/-- The thread that takes the step to `s'` has the ring to itself: it owns the mutex, or gets it, or
there is no other thread. -/
def Exclusive (s' : Engine) : EngineStep → Prop
  | .consumer t _ => s.mutex = some t ∨ s.mutex = none ∧ s'.mutex = some t
  | .callback _ => s.mutex = none
  | _ => s.ConsumersDone ∧ s.PumpsDone ∧ s.callback = none ∧ s.mutex = none

end Engine

/-- What a run keeps whose starts are alone. -/
structure Apart (s : Engine) : Prop extends Threads s, Locked s where
  asking : s.app.Asking → s.ConsumersDone ∧ s.PumpsDone

namespace Apart

open Engine

variable {s s' : Engine}

theorem initial : Apart .initial := ⟨.initial, .initial, nofun⟩

theorem startsQuietly (h : Apart s) (l : EngineStep) : s.StartsQuietly l := by
  unfold StartsQuietly
  split
  · split
    · rename_i happ
      exact fun _ => h.asking (happ ▸ trivial)
    · trivial
  · trivial

/-- Until a start is admitted, the threads before have exited. -/
theorem asking_step {l : EngineStep} (h : Apart s) (hl : s.StartsAlone l)
    (hs : machine.step s l = some s') (hasking : s'.app.Asking) :
    s'.ConsumersDone ∧ s'.PumpsDone := by
  cases moves_of_step hs with
  | callStart => exact hl
  | callStop => exact absurd hasking id
  | app hm =>
    cases hm with
    | offTaken happ | onTaken happ | testStreaming happ => exact h.asking (happ ▸ trivial)
    | _ => exact absurd hasking id
  | consumer hpc hm =>
    obtain ⟨hne, streaming, queue, mutex, pc', rfl⟩ := hm.frame
    exact absurd ((h.asking hasking).1 _ (List.mem_of_getElem? hpc)) hne
  | pump hpc hm =>
    obtain ⟨hne, -, streaming, pc', rfl⟩ := hm.frame
    exact absurd ((h.asking hasking).2 _ (List.mem_of_getElem? hpc)) hne
  | dispatch => exact h.asking hasking
  | callback _ hm =>
    obtain ⟨streaming, queue, status, live, callback, rfl, -⟩ := hm.frame
    exact h.asking hasking

/-- **One step** keeps the threads apart. -/
theorem step {l : EngineStep} (h : Apart s) (hl : s.StartsAlone l)
    (hs : machine.step s l = some s') : Apart s' :=
  ⟨h.toThreads.step (h.startsQuietly l) hs, h.toLocked.step hs, h.asking_step hl hs⟩

theorem alone (h : Apart s) (hc : s.ConsumersDone) (hp : s.PumpsDone) (happ : ¬ s.app.Handles) :
    s.callback = none ∧ s.mutex = none := by
  constructor
  · by_contra hne
    obtain ⟨⟨hd, pc⟩, hcb⟩ := Option.ne_none_iff_exists'.1 hne
    have hh := h.handler hd pc hcb
    cases hd with
    | app => exact happ hh
    | pump t => exact absurd (hp _ (List.mem_of_getElem? hh)) nofun
  · by_contra hne
    obtain ⟨t, hm⟩ := Option.ne_none_iff_exists'.1 hne
    obtain ⟨pc, hpc⟩ := h.exists_owner t hm
    have howns := (h.owns t pc hpc).2 hm
    obtain rfl := hc pc (List.mem_of_getElem? hpc)
    exact howns

/-- **An access to the ring has no company.** -/
theorem exclusive {l : EngineStep} (h : Apart s) (hl : s.StartsAlone l)
    (hs : machine.step s l = some s') (huses : s.UsesRing l) : s.Exclusive s' l := by
  cases moves_of_step hs with
  | callStart happ => exact ⟨hl.1, hl.2, h.alone hl.1 hl.2 (happ ▸ nofun)⟩
  | callStop => exact absurd huses id
  | app =>
    have happ : s.app = .reset := huses
    have hc := h.consumersDone (happ ▸ trivial)
    have hp := h.pumpsDone (happ ▸ trivial)
    exact ⟨hc, hp, h.alone hc hp (happ ▸ nofun)⟩
  | consumer hpc hm =>
    obtain ⟨pc, hpc', hpcuses⟩ := huses
    obtain rfl := Option.some.inj (hpc.symm.trans hpc')
    cases hm with
    | innerStreaming | innerLeave | take => exact .inl ((h.owns _ _ hpc).1 trivial)
    | release hmutex => exact .inr ⟨hmutex, rfl⟩
    | _ => exact absurd hpcuses id
  | pump => exact absurd huses id
  | dispatch => exact absurd huses id
  | callback hc hm =>
    obtain ⟨hd, i, hlock⟩ := huses
    obtain ⟨rfl, rfl⟩ := Prod.mk.inj (Option.some.inj (hc.symm.trans hlock))
    cases hm with
    | receive hmutex => exact hmutex

/-- **Nothing else changes the ring.** -/
theorem queue_eq {l : EngineStep} (hs : machine.step s l = some s') (huses : ¬ s.UsesRing l) :
    s'.stream.queue = s.stream.queue := by
  cases moves_of_step hs with
  | callStart => exact absurd trivial huses
  | callStop | dispatch => rfl
  | app hm =>
    cases hm with
    | reset happ => exact absurd happ huses
    | cancel _ hi =>
      obtain ⟨status, he⟩ := s.stream.cancelTransfer_eq ⟨_, hi⟩
      rw [he]
      rfl
    | _ => rfl
  | consumer hpc hm =>
    cases hm with
    | take | release => exact absurd ⟨_, hpc, trivial⟩ huses
    | _ => rfl
  | pump _ hm =>
    obtain ⟨-, -, streaming, pc', rfl⟩ := hm.frame
    rfl
  | callback hc hm =>
    cases hm with
    | receive => exact absurd ⟨_, _, hc⟩ huses
    | _ => rfl

end Apart

namespace Engine

/-- **The ring has one user at a time.**  In every run in which the application starts only when
the threads of the session before have exited, in whatever order the threads move: a step that looks
at the ring or changes it is taken with the ring to itself, and every other step leaves it alone. -/
theorem ring_exclusive {ls : List EngineStep} {l : EngineStep} {s s' : Engine}
    (halone : machine.Meets StartsAlone initial (ls ++ [l])) (h : machine.run initial ls = some s)
    (hs : machine.step s l = some s') :
    (s.UsesRing l → s.Exclusive s' l) ∧ (¬ s.UsesRing l → s'.stream.queue = s.stream.queue) := by
  obtain ⟨hls, hl, -⟩ := halone.append h
  have hapart := hls.invariant (fun _ _ _ h hl hs => h.step hl hs) Apart.initial h
  exact ⟨hapart.exclusive hl hs, Apart.queue_eq hs⟩

/-- A second session: the application starts, stops and starts again. -/
theorem ring_exclusive_restart : ∃ s s', machine.run initial
    (startSteps ++ settleSteps ++ stopSteps) = some s ∧
      machine.step s (.callStart 1 1) = some s' ∧ s.Exclusive s' (.callStart 1 1) := by
  have hrun : (machine.run initial (startSteps ++ settleSteps ++ stopSteps)).map (fun s => s.app) =
      some (.idle true) := by decide +kernel
  obtain ⟨s, hs, happ⟩ := Option.map_eq_some_iff.1 hrun
  have hstep : machine.step s (.callStart 1 1) =
      some (s.appTo s.stream.clearDrops (.startOff 1 1)) := by
    simp only [machine, happ]
  exact ⟨s, _, hs, hstep, (ring_exclusive (by decide +kernel) hs hstep).1 trivial⟩

end Engine

end AirspyHF
