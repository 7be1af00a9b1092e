import AirspyHF.Machine.Basic
import AirspyHF.Machine.Ring
import AirspyHF.Stream.Basic
import Mathlib.Logic.Equiv.Basic

/-!
# One streaming session

Between `create_io_threads` and the end of streaming, three actors share the ring: the transfer
callbacks, which run one at a time in the transfer thread, the consumer thread, and whoever clears
`streaming` or raises `stop_requested`.  `Session.machine` runs them in any order.  A callback is
two steps, the test of the flags (`arrive`) and the critical section (`receive`); a round of the
consumer is three, picking up a slot (`take`), converting it and calling the user (`deliver`), and
giving the slot back (`release`).

The flags are cleared at any time, also between the tests of the consumer and its next step, so
`take` depends on the number of received buffers only, which the mutex protects.

## Main results

* `session_safe` : no buffer is lost or shared, the buffer in process is left alone, and the blocks
  are taken in the order in which they were queued, each once.
* `drop_accounting` : the drop counts delivered with the blocks account for every completed
  transfer.
-/

namespace AirspyHF

/-- `SAMPLES_TO_TRANSFER`. -/
def samplesToTransfer : ℕ := 1024 * 4

/-- `buffer_size`: a sample is two 16-bit integers. -/
def bufferSize : ℕ := samplesToTransfer * 4

/-- `sample_count` of a block. -/
def sampleCount : ℕ := bufferSize / 4

/-- `dropped_samples` of a block. -/
def droppedSamples (droppedBuffers : UInt32) : UInt64 :=
  droppedBuffers.toUInt64 * UInt64.ofNat sampleCount

/-- No product overflows. -/
theorem toNat_droppedSamples (n : UInt32) : (droppedSamples n).toNat = n.toNat * sampleCount := by
  have hn := n.toNat_lt
  have hs : sampleCount = 4096 := rfl
  rw [droppedSamples, UInt64.toNat_mul, UInt32.toNat_toUInt64, hs]
  exact Nat.mod_eq_of_lt (by change _ * 4096 < _; omega)

/-! ### Where the buffers are -/

/-- A place that holds a buffer: a slot of the ring or a transfer. -/
abbrev Place := Fin rawBufferCount ⊕ Fin transferCount

namespace Queue

variable (q : Queue)

/-- The buffer at a place. -/
def place : Place → Buffer := Sum.elim q.receivedSamplesQueue q.transferBuffer

theorem place_enqueue (i : Fin transferCount) :
    (q.enqueue i).place = q.place ∘ Equiv.swap (.inl q.head) (.inr i) := by
  funext p
  rcases p with j | j
  · by_cases h : j = q.head
    · simp [place, enqueue, h]
    · have hne : Equiv.swap (.inl q.head) (.inr i) (.inl j : Place) = .inl j :=
        Equiv.swap_apply_of_ne_of_ne (by simpa using h) (by simp)
      simp [place, enqueue, h, hne]
  · by_cases h : j = i
    · simp [place, enqueue, h]
    · have hne : Equiv.swap (.inl q.head) (.inr i) (.inr j : Place) = .inr j :=
        Equiv.swap_apply_of_ne_of_ne (by simp) (by simpa using h)
      simp [place, enqueue, h, hne]

theorem place_receive (i : Fin transferCount) :
    ∃ π : Equiv.Perm Place, (q.receive i).place = q.place ∘ π := by
  unfold receive
  split
  · exact ⟨_, q.place_enqueue i⟩
  · exact ⟨Equiv.refl _, rfl⟩

end Queue

/-! ### The machine -/

/-- What the consumer is doing with a slot. -/
inductive Phase where
  /-- It waits, or is about to pick up a slot. -/
  | idle
  /-- It converts the buffer of a slot. -/
  | process (slot : Fin rawBufferCount) (buffer : Buffer) (dropped : UInt32)
  /-- The user callback has returned; the slot is not given back yet. -/
  | release (slot : Fin rawBufferCount) (buffer : Buffer)
  deriving DecidableEq, Repr

/-- The slot and the buffer in process. -/
def Phase.inProcess : Phase → Option (Fin rawBufferCount × Buffer)
  | .idle => none
  | .process slot buffer _ => some (slot, buffer)
  | .release slot buffer => some (slot, buffer)

/-- The number of slots in process. -/
def Phase.count : Phase → ℕ
  | .idle => 0
  | _ => 1

/-- A block passed to the user callback. -/
structure Block where
  /-- The number of the completed transfer its samples come from. -/
  number : ℕ
  /-- `dropped_samples`. -/
  droppedSamples : UInt64
  deriving DecidableEq, Repr

/-- The state of a session.  The fields after `phase` are the history that the results are about;
no step depends on them. -/
structure Session where
  /-- The queue of received buffers. -/
  queue : Queue
  /-- `streaming`. -/
  streaming : Bool
  /-- `stop_requested`. -/
  stopRequested : Bool
  /-- The transfer whose callback has passed the test of the flags. -/
  pending : Option (Fin transferCount)
  /-- What the consumer is doing. -/
  phase : Phase
  /-- The number of completed transfers so far. -/
  arrivals : ℕ
  /-- The number of the completed transfer that filled a buffer last. -/
  content : Buffer → ℕ
  /-- The blocks queued so far, with the drop counts stored with them. -/
  enqueued : List (ℕ × UInt32)
  /-- The blocks taken so far. -/
  taken : List (ℕ × UInt32)
  /-- The blocks passed to the user callback so far. -/
  delivered : List Block
  /-- The number of buffers dropped since a block was last queued. -/
  pendingDrops : ℕ

/-- The steps of a session. -/
inductive SessionStep where
  /-- The callback of transfer `i`, completed in full, tests the flags. -/
  | arrive (i : Fin transferCount)
  /-- The critical section of that callback. -/
  | receive
  /-- The consumer picks up the slot at the tail. -/
  | take
  /-- The consumer converts it and calls the user. -/
  | deliver
  /-- The consumer gives the slot back. -/
  | release
  /-- `streaming = false`: the user callback, a transfer, its resubmission or the event handling
  failed. -/
  | halt
  /-- `airspyhf_stop` raises `stop_requested`. -/
  | requestStop
  deriving DecidableEq, Repr

namespace Session

/-- A session that `create_io_threads` has just started. -/
def initial (q : Queue) : Session where
  queue := q
  streaming := true
  stopRequested := false
  pending := none
  phase := .idle
  arrivals := 0
  content _ := 0
  enqueued := []
  taken := []
  delivered := []
  pendingDrops := 0

variable (s : Session)

/-- The flags let a callback proceed. -/
def Live : Prop := s.streaming = true ∧ s.stopRequested = false

instance : Decidable s.Live := inferInstanceAs (Decidable (_ ∧ _))

/-- Transfer `i` completes; its callback proceeds if the flags let it. -/
def arrive (i : Fin transferCount) : Session :=
  { s with
    pending := if s.Live then some i else none
    arrivals := s.arrivals + 1
    content := Function.update s.content (s.queue.transferBuffer i) s.arrivals }

/-- The critical section of the callback of transfer `i`. -/
def receive (i : Fin transferCount) : Session :=
  if s.queue.HasRoom then
    { s with
      queue := s.queue.enqueue i
      pending := none
      enqueued := s.enqueued ++ [(s.content (s.queue.transferBuffer i), s.queue.droppedBuffers)]
      pendingDrops := 0 }
  else
    { s with
      queue := s.queue.drop
      pending := none
      pendingDrops := s.pendingDrops + 1 }

/-- The block in a slot. -/
def entry (i : Fin rawBufferCount) : ℕ × UInt32 :=
  (s.content (s.queue.receivedSamplesQueue i), s.queue.droppedBuffersQueue i)

/-- The consumer picks up the slot at the tail. -/
def take : Session :=
  { s with
    queue := s.queue.take
    phase := .process s.queue.tail (s.queue.receivedSamplesQueue s.queue.tail)
      (s.queue.droppedBuffersQueue s.queue.tail)
    taken := s.taken ++ [s.entry s.queue.tail] }

/-- The consumer passes the block in the buffer to the user. -/
def deliver (slot : Fin rawBufferCount) (buffer : Buffer) (dropped : UInt32) : Session :=
  { s with
    phase := .release slot buffer
    delivered := s.delivered ++ [⟨s.content buffer, droppedSamples dropped⟩] }

/-- The consumer gives the slot back. -/
def release : Session := { s with queue := s.queue.release, phase := .idle }

/-- The machine of a session. -/
def machine : Machine Session SessionStep where
  step s
    | .arrive i => if s.pending = none then some (s.arrive i) else none
    | .receive => s.pending.map s.receive
    | .take =>
      if s.phase = .idle ∧ s.queue.receivedBufferCount ≠ 0 then some s.take else none
    | .deliver =>
      match s.phase with
      | .process slot buffer dropped => some (s.deliver slot buffer dropped)
      | _ => none
    | .release =>
      match s.phase with
      | .release _ _ => some s.release
      | _ => none
    | .halt => some { s with streaming := false }
    | .requestStop => some { s with stopRequested := true }

/-- Everything a step can do. -/
inductive Moves (s : Session) : Session → Prop
  | arrive (i : Fin transferCount) (h : s.pending = none) : Moves s (s.arrive i)
  | receive (i : Fin transferCount) (h : s.pending = some i) : Moves s (s.receive i)
  | take (h : s.phase = .idle) (hc : s.queue.receivedBufferCount ≠ 0) : Moves s s.take
  | deliver (slot : Fin rawBufferCount) (buffer : Buffer) (dropped : UInt32)
      (h : s.phase = .process slot buffer dropped) : Moves s (s.deliver slot buffer dropped)
  | release (slot : Fin rawBufferCount) (buffer : Buffer) (h : s.phase = .release slot buffer) :
      Moves s s.release
  | halt : Moves s { s with streaming := false }
  | requestStop : Moves s { s with stopRequested := true }

theorem moves_of_step {s s' : Session} {l : SessionStep} (h : machine.step s l = some s') :
    s.Moves s' := by
  cases l with
  | arrive i =>
    obtain ⟨hp, he⟩ := Option.ite_none_right_eq_some.1 h
    exact Option.some.inj he ▸ .arrive i hp
  | receive =>
    obtain ⟨i, hp, rfl⟩ := Option.map_eq_some_iff.1 h
    exact .receive i hp
  | take =>
    obtain ⟨hp, he⟩ := Option.ite_none_right_eq_some.1 h
    exact Option.some.inj he ▸ .take hp.1 hp.2
  | deliver =>
    simp only [machine] at h
    split at h
    · rename_i hp
      exact Option.some.inj h ▸ .deliver _ _ _ hp
    · cases h
  | release =>
    simp only [machine] at h
    split at h
    · rename_i hp
      exact Option.some.inj h ▸ .release _ _ hp
    · cases h
  | halt => exact Option.some.inj h ▸ .halt
  | requestStop => exact Option.some.inj h ▸ .requestStop

variable {s}

theorem run_take (h : s.phase = .idle) (hc : s.queue.receivedBufferCount ≠ 0) :
    machine.run s [.take] = some s.take :=
  Machine.run_cons.2 ⟨_, if_pos ⟨h, hc⟩, rfl⟩

theorem run_deliver {slot : Fin rawBufferCount} {buffer : Buffer} {dropped : UInt32}
    (h : s.phase = .process slot buffer dropped) :
    machine.run s [.deliver] = some (s.deliver slot buffer dropped) := by
  refine Machine.run_cons.2 ⟨_, ?_, rfl⟩
  simp only [machine, h]

theorem run_release {slot : Fin rawBufferCount} {buffer : Buffer}
    (h : s.phase = .release slot buffer) : machine.run s [.release] = some s.release := by
  refine Machine.run_cons.2 ⟨_, ?_, rfl⟩
  simp only [machine, h]

theorem run_arrive (i : Fin transferCount) (h : s.pending = none) :
    machine.run s [.arrive i] = some (s.arrive i) :=
  Machine.run_cons.2 ⟨_, if_pos h, rfl⟩

/-- Whether it queues the buffer or drops it, the critical section is that of the queue. -/
theorem receive_eq (s : Session) (i : Fin transferCount) : ∃ enqueued pendingDrops, s.receive i =
    { s with
      queue := s.queue.receive i
      pending := none
      enqueued := enqueued
      pendingDrops := pendingDrops } := by
  unfold receive Queue.receive
  split <;> exact ⟨_, _, rfl⟩

theorem run_receive {i : Fin transferCount} (h : s.pending = some i) :
    machine.run s [.receive] = some (s.receive i) :=
  Machine.run_cons.2 ⟨_, congrArg (Option.map s.receive) h, rfl⟩

/-! ### Buffers and order -/

/-- The invariant behind `session_safe`, with `k` blocks waiting in the ring. -/
structure Safe (q₀ : Queue) (k : ℕ) (s : Session) : Prop where
  /-- The buffers are a permutation of the original ones. -/
  places : ∃ σ : Equiv.Perm Place, s.queue.place = q₀.place ∘ σ
  /-- The slot in process counts as received. -/
  count : s.queue.receivedBufferCount = (k + s.phase.count : ℕ)
  room : k + s.phase.count ≤ rawBufferCount
  /-- The waiting blocks stand between the tail and the head. -/
  head : s.queue.head = Ring.slot s.queue.tail k
  /-- The slot in process is the one before the tail, and still holds the block taken last. -/
  held : ∀ slot buffer, s.phase.inProcess = some (slot, buffer) → s.queue.tail = slot + 1 ∧
    s.queue.receivedSamplesQueue slot = buffer ∧
    s.taken.getLast?.map Prod.fst = some (s.content buffer)
  /-- First in, first out. -/
  fifo : s.enqueued = s.taken ++ (Ring.window s.queue.tail k).map s.entry
  /-- The pending transfer is the last completed one. -/
  pending : ∀ i, s.pending = some i → s.content (s.queue.transferBuffer i) + 1 = s.arrivals
  /-- Blocks are queued in the order of their numbers. -/
  sorted : (s.enqueued.map Prod.fst).Pairwise (· < ·)
  bound : ∀ e ∈ s.enqueued, e.1 + s.pending.isSome.toNat < s.arrivals

variable {s : Session} {q₀ : Queue} {k : ℕ}

theorem safe_initial (hc : q₀.receivedBufferCount = 0) (ht : q₀.head = q₀.tail) :
    (initial q₀).Safe q₀ 0 where
  places := ⟨.refl _, rfl⟩
  count := hc
  room := Nat.zero_le _
  head := by rw [Ring.slot_zero]; exact ht
  held := nofun
  fifo := rfl
  pending := nofun
  sorted := .nil
  bound := nofun

namespace Safe

theorem ne (h : s.Safe q₀ k) (hq : Function.Injective q₀.place) (j : Fin rawBufferCount)
    (i : Fin transferCount) : s.queue.receivedSamplesQueue j ≠ s.queue.transferBuffer i := by
  obtain ⟨σ, hσ⟩ := h.places
  have hinj : Function.Injective s.queue.place := hσ ▸ hq.comp σ.injective
  exact fun he => Sum.inl_ne_inr (@hinj (.inl j) (.inr i) he)

theorem arrive (h : s.Safe q₀ k) (hq : Function.Injective q₀.place) (i : Fin transferCount)
    (hp : s.pending = none) : (s.arrive i).Safe q₀ k := by
  have hcontent : ∀ j, (s.arrive i).content (s.queue.receivedSamplesQueue j) =
      s.content (s.queue.receivedSamplesQueue j) :=
    fun j => Function.update_of_ne (h.ne hq j i) _ _
  have hentry : (s.arrive i).entry = s.entry :=
    funext fun j => Prod.ext (hcontent j) rfl
  -- only the contents of the buffer of transfer `i` change, and it is not in the ring
  refine ⟨h.places, h.count, h.room, h.head, ?_, ?_, ?_, h.sorted, ?_⟩
  · intro slot buffer hs
    obtain ⟨ht, rfl, hl⟩ := h.held slot buffer hs
    exact ⟨ht, rfl, hl.trans (congrArg some (hcontent slot).symm)⟩
  · rw [hentry]
    exact h.fifo
  · intro j hj
    obtain ⟨-, rfl⟩ : s.Live ∧ i = j := by simpa [Session.arrive] using hj
    exact congrArg (· + 1) (Function.update_self ..)
  · intro e he
    have hb := h.bound e he
    have hle := Bool.toNat_le (s.arrive i).pending.isSome
    simp only [hp, Option.isSome_none, Bool.toNat_false] at hb
    show _ < s.arrivals + 1
    omega

theorem head_ne (h : s.Safe q₀ k) (hr : s.queue.HasRoom) {slot : Fin rawBufferCount}
    {buffer : Buffer} (hs : s.phase.inProcess = some (slot, buffer)) : slot ≠ s.queue.head := by
  have hone : s.phase.count = 1 := by
    cases hphase : s.phase <;> simp_all [Phase.inProcess, Phase.count]
  have hlt : k + 1 < rawBufferCount := by
    have := h.count
    rw [Queue.HasRoom] at hr
    omega
  obtain ⟨ht, -, -⟩ := h.held slot buffer hs
  -- the slot in process is at offset 0 and the head at offset `k + 1` from it
  rw [h.head, ht, ← Ring.slot_succ]
  intro he
  have := Ring.slot_injOn (by omega) hlt ((Ring.slot_zero slot).trans he)
  omega

theorem enqueue (h : s.Safe q₀ k) (i : Fin transferCount) (hp : s.pending = some i)
    (hr : s.queue.HasRoom) : (s.receive i).Safe q₀ (k + 1) := by
  have hlt : k + s.phase.count < rawBufferCount := by
    have := h.count
    rw [Queue.HasRoom] at hr
    omega
  have hpending := h.pending i hp
  have hbound : ∀ e ∈ s.enqueued, e.1 < s.content (s.queue.transferBuffer i) := by
    intro e he
    have := h.bound e he
    simp only [hp, Option.isSome_some, Bool.toNat_true] at this
    omega
  obtain ⟨σ, hσ⟩ := h.places
  rw [Session.receive, if_pos hr]
  have hroom : k + 1 + s.phase.count ≤ rawBufferCount := by omega
  refine ⟨⟨(Equiv.swap (.inl s.queue.head) (.inr i)).trans σ, ?_⟩, ?_, hroom, ?_, ?_, ?_, nofun,
    ?_, ?_⟩
  · rw [Queue.place_enqueue, hσ]
    rfl
  · show s.queue.receivedBufferCount + 1 = ((k + 1 + s.phase.count : ℕ) : ℤ)
    rw [h.count]
    push_cast
    ring
  · show s.queue.head + 1 = Ring.slot s.queue.tail (k + 1)
    rw [h.head, Ring.slot_add_one]
  · intro slot buffer hs
    obtain ⟨ht, rfl, hl⟩ := h.held slot buffer hs
    exact ⟨ht, Function.update_of_ne (h.head_ne hr hs) _ _, hl⟩
  · -- the new block comes last, and overwrites none that waits
    have hother : ∀ j, j ≠ Ring.slot s.queue.tail k →
        ({ s with queue := s.queue.enqueue i } : Session).entry j = s.entry j := by
      intro j hj
      rw [← h.head] at hj
      simp [entry, Queue.enqueue, hj]
    have hlast : ({ s with queue := s.queue.enqueue i } : Session).entry s.queue.head =
        (s.content (s.queue.transferBuffer i), s.queue.droppedBuffers) := by
      simp [entry, Queue.enqueue]
    have hmap := Ring.map_window_update (by omega : k < rawBufferCount) hother
    rw [← h.head, hlast] at hmap
    show s.enqueued ++ [_] = s.taken ++ (Ring.window s.queue.tail (k + 1)).map
      ({ s with queue := s.queue.enqueue i } : Session).entry
    rw [hmap, h.fifo, List.append_assoc]
  · rw [List.map_append, List.pairwise_append]
    refine ⟨h.sorted, List.pairwise_singleton .., ?_⟩
    simpa using fun a b hab => hbound (a, b) hab
  · intro e he
    show e.1 < s.arrivals
    rcases List.mem_append.1 he with he | he
    · exact (hbound e he).trans (by omega)
    · rw [List.mem_singleton.1 he]
      show s.content (s.queue.transferBuffer i) < s.arrivals
      omega

theorem drop (h : s.Safe q₀ k) (i : Fin transferCount) (hr : ¬ s.queue.HasRoom) :
    (s.receive i).Safe q₀ k := by
  rw [Session.receive, if_neg hr]
  refine ⟨h.places, h.count, h.room, h.head, h.held, h.fifo, nofun, h.sorted, ?_⟩
  intro e he
  have := h.bound e he
  show e.1 < s.arrivals
  omega

theorem take (h : s.Safe q₀ (k + 1)) (hphase : s.phase = .idle) : s.take.Safe q₀ k := by
  have hcount := h.count
  have hroom := h.room
  rw [hphase] at hcount hroom
  refine ⟨h.places, hcount, hroom, ?_, ?_, ?_, h.pending, h.sorted, h.bound⟩
  · exact h.head.trans (Ring.slot_succ _ _)
  · rintro slot buffer hs
    -- the slot just taken is in process now
    cases hs
    exact ⟨rfl, rfl, by simp [Session.take, entry]⟩
  · show s.enqueued = (s.taken ++ [_]) ++ (Ring.window (s.queue.tail + 1) k).map s.entry
    rw [h.fifo, Ring.window_succ, List.map_cons, List.append_assoc]
    rfl

theorem deliver (h : s.Safe q₀ k) {slot : Fin rawBufferCount} {buffer : Buffer} {dropped : UInt32}
    (hphase : s.phase = .process slot buffer dropped) :
    (s.deliver slot buffer dropped).Safe q₀ k := by
  have hcount := h.count
  have hroom := h.room
  have hheld := h.held
  rw [hphase] at hcount hroom hheld
  exact ⟨h.places, hcount, hroom, h.head, hheld, h.fifo, h.pending, h.sorted, h.bound⟩

theorem release (h : s.Safe q₀ k) {slot : Fin rawBufferCount} {buffer : Buffer}
    (hphase : s.phase = .release slot buffer) : s.release.Safe q₀ k := by
  have hcount := h.count
  have hroom := h.room
  rw [hphase] at hcount hroom
  refine ⟨h.places, ?_, ?_, h.head, nofun, h.fifo, h.pending, h.sorted, h.bound⟩
  · change s.queue.receivedBufferCount - 1 = ((k + 0 : ℕ) : ℤ)
    rw [hcount]
    change ((k + 1 : ℕ) : ℤ) - 1 = _
    push_cast
    ring
  · change k + 0 ≤ rawBufferCount
    change k + 1 ≤ rawBufferCount at hroom
    omega

/-- **One step** keeps the invariant. -/
theorem step {s' : Session} {l : SessionStep} (hq : Function.Injective q₀.place)
    (h : s.Safe q₀ k) (hs : machine.step s l = some s') : ∃ k', s'.Safe q₀ k' := by
  cases moves_of_step hs with
  | arrive i hp => exact ⟨k, h.arrive hq i hp⟩
  | receive i hp =>
    by_cases hr : s.queue.HasRoom
    · exact ⟨k + 1, h.enqueue i hp hr⟩
    · exact ⟨k, h.drop i hr⟩
  | take hphase hc =>
    have hcount := h.count
    rw [hphase] at hcount
    obtain ⟨j, rfl⟩ : ∃ j, k = j + 1 := Nat.exists_eq_add_one.2 (by
      change s.queue.receivedBufferCount = ((k + 0 : ℕ) : ℤ) at hcount
      omega)
    exact ⟨j, h.take hphase⟩
  | deliver slot buffer dropped hphase => exact ⟨k, h.deliver hphase⟩
  | release slot buffer hphase => exact ⟨k, h.release hphase⟩
  | halt =>
    exact ⟨k, h.places, h.count, h.room, h.head, h.held, h.fifo, h.pending, h.sorted, h.bound⟩
  | requestStop =>
    exact ⟨k, h.places, h.count, h.room, h.head, h.held, h.fifo, h.pending, h.sorted, h.bound⟩

end Safe

theorem safe_of_reachable {q₀ : Queue} (hc : q₀.receivedBufferCount = 0) (ht : q₀.head = q₀.tail)
    (hq : Function.Injective q₀.place) {s : Session} (hs : machine.Reachable (initial q₀) s) :
    ∃ k, s.Safe q₀ k :=
  Machine.invariant (I := fun s => ∃ k, s.Safe q₀ k)
    (fun _ _ _ ⟨_, h⟩ hst => h.step hq hst) ⟨0, safe_initial hc ht⟩ hs

/-- **A session is safe.**  In every interleaving the buffers remain a permutation of the original
ones; the count stays within the ring; the buffer in process stays in its slot, away from the
transfers, and holds the block that was taken; and the blocks queued so far, all different, are
those taken so far followed by those that wait. -/
theorem session_safe {q₀ : Queue} (hc : q₀.receivedBufferCount = 0) (ht : q₀.head = q₀.tail)
    (hq : Function.Injective q₀.place) {s : Session} (hs : machine.Reachable (initial q₀) s) :
    (∃ σ : Equiv.Perm Place, s.queue.place = q₀.place ∘ σ) ∧
      (0 ≤ s.queue.receivedBufferCount ∧ s.queue.receivedBufferCount ≤ rawBufferCount) ∧
      (∀ slot buffer, s.phase.inProcess = some (slot, buffer) →
        s.queue.receivedSamplesQueue slot = buffer ∧ (∀ i, s.queue.transferBuffer i ≠ buffer) ∧
          s.taken.getLast?.map Prod.fst = some (s.content buffer)) ∧
      (∃ waiting, s.enqueued = s.taken ++ waiting ∧
        s.queue.receivedBufferCount = (waiting.length + s.phase.count : ℕ)) ∧
      (s.enqueued.map Prod.fst).Nodup := by
  obtain ⟨k, h⟩ := safe_of_reachable hc ht hq hs
  have hcount := h.count
  have hroom := h.room
  refine ⟨h.places, by omega, ?_, ⟨_, h.fifo, by simpa using hcount⟩, h.sorted.imp Nat.ne_of_lt⟩
  intro slot buffer hp
  obtain ⟨-, rfl, hl⟩ := h.held slot buffer hp
  exact ⟨rfl, fun i => (h.ne hq slot i).symm, hl⟩

theorem injective_place_initial : Function.Injective Queue.initial.place := by
  rintro (i | i) (j | j) h <;>
    simp only [Queue.place, Queue.initial, Sum.elim_inl, Sum.elim_inr] at h
  · rw [Fin.ext h]
  · exact absurd (h ▸ i.isLt : rawBufferCount + j.val < rawBufferCount) (by omega)
  · exact absurd (h ▸ j.isLt : rawBufferCount + i.val < rawBufferCount) (by omega)
  · rw [Fin.ext (Nat.add_left_cancel h)]

/-- Nine transfers complete before the consumer takes the first one. -/
def overrun : List SessionStep :=
  ([0, 1, 2, 3, 4, 5, 6, 7, 8] : List (Fin transferCount)).flatMap
    (fun i => [.arrive i, .receive]) ++ [.take]

/-- After the overrun, the block in process is followed by the seven that wait. -/
theorem overrun_safe : ∃ s, machine.run (initial .initial) overrun = some s ∧
    ∃ waiting, s.enqueued = s.taken ++ waiting ∧
      s.queue.receivedBufferCount = (waiting.length + s.phase.count : ℕ) := by
  obtain ⟨s, hs⟩ := Option.isSome_iff_exists.1
    (by decide +kernel : (machine.run (initial .initial) overrun).isSome = true)
  exact ⟨s, hs, (session_safe rfl rfl injective_place_initial ⟨_, hs⟩).2.2.2.1⟩

/-! ### Drop accounting -/

/-- The drops counted in a list of blocks. -/
def dropsOf (blocks : List (ℕ × UInt32)) : ℕ := (blocks.map fun b => b.2.toNat).sum

/-- Every block is the completed transfer whose number is that of the blocks before it plus the
drops counted up to it. -/
def Numbered (blocks : List (ℕ × UInt32)) : Prop :=
  ∀ k b, blocks[k]? = some b → b.1 = dropsOf (blocks.take (k + 1)) + k

theorem dropsOf_append (xs ys : List (ℕ × UInt32)) :
    dropsOf (xs ++ ys) = dropsOf xs + dropsOf ys := by
  simp [dropsOf]

theorem Numbered.append {blocks : List (ℕ × UInt32)} (h : Numbered blocks) {n : ℕ} {d : UInt32}
    (hn : n = dropsOf blocks + d.toNat + blocks.length) : Numbered (blocks ++ [(n, d)]) := by
  intro k b hb
  -- an old block, the new one, or none
  rcases Nat.lt_trichotomy k blocks.length with hk | rfl | hk
  · rw [List.getElem?_append_left hk] at hb
    rw [List.take_append_of_le_length (by omega), h k b hb]
  · obtain rfl : (n, d) = b := by simpa using hb
    rw [List.take_of_length_le (by simp), dropsOf_append]
    simpa [dropsOf] using hn
  · rw [List.getElem?_eq_none (by simp; omega)] at hb
    cases hb

theorem Numbered.of_append {xs ys : List (ℕ × UInt32)} (h : Numbered (xs ++ ys)) : Numbered xs := by
  intro k b hb
  have hk := (List.getElem?_eq_some_iff.1 hb).1
  have := h k b (by rw [List.getElem?_append_left hk, hb])
  rwa [List.take_append_of_le_length (by omega)] at this

/-- The block passed to the user for a block taken from the ring. -/
def toBlock (b : ℕ × UInt32) : Block := ⟨b.1, droppedSamples b.2⟩

/-- The completed transfers queued or dropped so far. -/
def accounted (s : Session) : ℕ := dropsOf s.enqueued + s.enqueued.length + s.pendingDrops

/-- The blocks delivered so far are those taken, but for the one being converted. -/
def Delivers (s : Session) : Prop :=
  match s.phase with
  | .process _ buffer dropped => s.taken.map toBlock =
      s.delivered ++ [toBlock (s.content buffer, dropped)]
  | _ => s.taken.map toBlock = s.delivered

/-- The invariant behind `drop_accounting`. -/
structure Accounts (s : Session) : Prop where
  /-- The drop counter has not wrapped. -/
  drops : s.queue.droppedBuffers.toNat = s.pendingDrops
  numbered : Numbered s.enqueued
  /-- While the flags let callbacks proceed, every completed transfer is accounted for. -/
  live : s.Live → s.arrivals = s.accounted + s.pending.isSome.toNat
  /-- The pending transfer is the next one to be accounted for. -/
  pending : ∀ i, s.pending = some i → s.content (s.queue.transferBuffer i) = s.accounted
  delivers : s.Delivers

theorem accounts_initial (hd : q₀.droppedBuffers = 0) : (initial q₀).Accounts where
  drops := congrArg UInt32.toNat hd
  numbered := nofun
  live := fun _ => rfl
  pending := nofun
  delivers := rfl

namespace Accounts

theorem arrive (h : s.Accounts) (hs : s.Safe q₀ k) (hq : Function.Injective q₀.place)
    (i : Fin transferCount) (hp : s.pending = none) : (s.arrive i).Accounts := by
  have hlive : s.Live → s.arrivals = s.accounted := fun hl => by simpa [hp] using h.live hl
  refine ⟨h.drops, h.numbered, ?_, ?_, ?_⟩
  · intro hl
    have hl' : s.Live := hl
    show s.arrivals + 1 = s.accounted + (s.arrive i).pending.isSome.toNat
    simp [Session.arrive, hl', hlive hl']
  · intro j hj
    obtain ⟨hl, rfl⟩ : s.Live ∧ i = j := by simpa [Session.arrive] using hj
    exact (Function.update_self ..).trans (hlive hl)
  · -- the block being converted is not the one that arrives
    have hd := h.delivers
    have hheld := hs.held
    unfold Delivers at hd ⊢
    show match s.phase with | .process _ buffer dropped => _ | _ => _
    cases hphase : s.phase with
    | process slot buffer dropped =>
      rw [hphase] at hd hheld
      obtain ⟨-, rfl, -⟩ := hheld slot buffer rfl
      have hcontent : (s.arrive i).content (s.queue.receivedSamplesQueue slot) =
          s.content (s.queue.receivedSamplesQueue slot) :=
        Function.update_of_ne (hs.ne hq slot i) _ _
      simp only
      rw [hcontent]
      exact hd
    | idle | release => rw [hphase] at hd; exact hd

theorem enqueue (h : s.Accounts) (i : Fin transferCount) (hp : s.pending = some i)
    (hr : s.queue.HasRoom) : (s.receive i).Accounts := by
  have haccounted : dropsOf (s.enqueued ++
      [(s.content (s.queue.transferBuffer i), s.queue.droppedBuffers)]) =
        dropsOf s.enqueued + s.pendingDrops := by
    rw [dropsOf_append, ← h.drops]
    simp [dropsOf]
  have hlive := h.live
  rw [Session.receive, if_pos hr]
  refine ⟨rfl, h.numbered.append ?_, ?_, nofun, h.delivers⟩
  · rw [h.pending i hp, accounted, h.drops]
    omega
  · intro hl
    have := hlive hl
    simp only [accounted, hp, Option.isSome_some, Bool.toNat_true] at this
    simp only [accounted, haccounted, List.length_append, List.length_singleton]
    exact this.trans (by simp; omega)

theorem drop (h : s.Accounts) (i : Fin transferCount) (hp : s.pending = some i)
    (hr : ¬ s.queue.HasRoom) (hb : s.pendingDrops + 1 < 2 ^ 32) : (s.receive i).Accounts := by
  have hlive := h.live
  -- the counter is 32 bits wide
  rw [Session.receive, if_neg hr]
  refine ⟨?_, h.numbered, ?_, nofun, h.delivers⟩
  · show (s.queue.droppedBuffers + 1).toNat = s.pendingDrops + 1
    rw [UInt32.toNat_add, h.drops]
    exact Nat.mod_eq_of_lt hb
  · intro hl
    have := hlive hl
    simp only [accounted, hp, Option.isSome_some, Bool.toNat_true] at this
    simp only [accounted]
    exact this.trans (by simp; omega)

theorem take (h : s.Accounts) (hphase : s.phase = .idle) : s.take.Accounts := by
  refine ⟨h.drops, h.numbered, h.live, h.pending, ?_⟩
  have hd := h.delivers
  rw [Delivers, hphase] at hd
  show (s.taken ++ [s.entry s.queue.tail]).map toBlock = s.delivered ++ [_]
  rw [List.map_append, ← hd]
  rfl

theorem deliver (h : s.Accounts) {slot : Fin rawBufferCount} {buffer : Buffer} {dropped : UInt32}
    (hphase : s.phase = .process slot buffer dropped) :
    (s.deliver slot buffer dropped).Accounts := by
  refine ⟨h.drops, h.numbered, h.live, h.pending, ?_⟩
  have hd := h.delivers
  rw [Delivers, hphase] at hd
  exact hd

theorem release (h : s.Accounts) {slot : Fin rawBufferCount} {buffer : Buffer}
    (hphase : s.phase = .release slot buffer) : s.release.Accounts := by
  refine ⟨h.drops, h.numbered, h.live, h.pending, ?_⟩
  have hd := h.delivers
  rw [Delivers, hphase] at hd
  exact hd

/-- **One step** keeps the accounts, unless the drop counter wraps. -/
theorem step {s' : Session} {l : SessionStep} (h : s.Accounts) (hsafe : s.Safe q₀ k)
    (hq : Function.Injective q₀.place) (hb : s'.pendingDrops < 2 ^ 32)
    (hs : machine.step s l = some s') : s'.Accounts := by
  cases moves_of_step hs with
  | arrive i hp => exact h.arrive hsafe hq i hp
  | receive i hp =>
    by_cases hr : s.queue.HasRoom
    · exact h.enqueue i hp hr
    · rw [Session.receive, if_neg hr] at hb
      exact h.drop i hp hr hb
  | take hphase => exact h.take hphase
  | deliver slot buffer dropped hphase => exact h.deliver hphase
  | release slot buffer hphase => exact h.release hphase
  | halt => exact ⟨h.drops, h.numbered, fun hl => absurd hl.1 nofun, h.pending, h.delivers⟩
  | requestStop => exact ⟨h.drops, h.numbered, fun hl => absurd hl.2 nofun, h.pending, h.delivers⟩

end Accounts

/-- The blocks delivered are the first ones queued. -/
theorem delivered_eq (hs : s.Safe q₀ k) (h : s.Accounts) :
    ∃ blocks, s.delivered = blocks.map toBlock ∧ Numbered blocks := by
  have hd := h.delivers
  have htaken : Numbered s.taken := (hs.fifo ▸ h.numbered).of_append
  unfold Delivers at hd
  split at hd
  · obtain ⟨blocks, last, htake, hblocks, -⟩ := List.map_eq_append_iff.1 hd
    exact ⟨blocks, hblocks.symm, (htake ▸ htaken).of_append⟩
  · exact ⟨s.taken, hd.symm, htaken⟩

/-- **Drop accounting is exact.**  If fewer than `2^32` buffers are dropped in a row, and the
blocks delivered report the drops `ds`, in units of `sample_count` samples, then the block at
position `k` is the completed transfer whose number is `k` plus the drops reported up to it. -/
theorem drop_accounting {q₀ : Queue} (hc : q₀.receivedBufferCount = 0) (ht : q₀.head = q₀.tail)
    (hd : q₀.droppedBuffers = 0) (hq : Function.Injective q₀.place) {s : Session}
    {steps : List SessionStep} (hb : machine.Always (fun s => s.pendingDrops < 2 ^ 32)
      (initial q₀) steps) (hs : machine.run (initial q₀) steps = some s) {ds : List ℕ}
    (hds : s.delivered.map (fun b => b.droppedSamples.toNat) = ds.map (· * sampleCount)) (k : ℕ)
    (b : Block) (hk : s.delivered[k]? = some b) : b.number = (ds.take (k + 1)).sum + k := by
  obtain ⟨⟨_, hsafe⟩, h⟩ := Machine.Always.invariant
    (I := fun s => (∃ k, s.Safe q₀ k) ∧ s.Accounts)
    (fun _ _ _ ⟨⟨_, hsafe⟩, h⟩ hb hst => ⟨hsafe.step hq hst, h.step hsafe hq hb hst⟩) hb
    ⟨⟨0, safe_initial hc ht⟩, accounts_initial hd⟩ hs
  obtain ⟨blocks, hblocks, hn⟩ := delivered_eq hsafe h
  -- the reported numbers of samples determine the drop counts
  obtain rfl : blocks.map (fun b => b.2.toNat) = ds := by
    have hinj : Function.Injective fun n => n * sampleCount :=
      fun m n hmn => Nat.eq_of_mul_eq_mul_right (by decide) hmn
    refine List.map_injective_iff.2 hinj ?_
    rw [← hds, hblocks, List.map_map, List.map_map]
    exact List.map_congr_left fun b _ => (toNat_droppedSamples b.2).symm
  rw [hblocks, List.getElem?_map, Option.map_eq_some_iff] at hk
  obtain ⟨c, hc, rfl⟩ := hk
  rw [← List.map_take]
  exact hn k c hc

/-- The consumer catches up after the overrun, while one more transfer completes. -/
def recovery : List SessionStep :=
  overrun ++ [.deliver, .release, .arrive 9, .receive] ++
    (List.replicate 8 [.take, .deliver, .release]).flatten

/-- The ninth block delivered is the tenth completed transfer, and reports the dropped one. -/
theorem recovery_accounting : ∃ s, machine.run (initial .initial) recovery = some s ∧
    s.delivered.length = 9 ∧ ∀ b, s.delivered[8]? = some b → b.number = 9 := by
  have hrun : (machine.run (initial .initial) recovery).map (fun s => s.delivered) =
      some ((List.range 8).map (fun n => ⟨n, 0⟩) ++ [⟨9, 4096⟩]) := by decide +kernel
  obtain ⟨s, hs, hd⟩ := Option.map_eq_some_iff.1 hrun
  refine ⟨s, hs, by rw [hd]; rfl, ?_⟩
  intro b hb
  have hds : s.delivered.map (fun b => b.droppedSamples.toNat) =
      ([0, 0, 0, 0, 0, 0, 0, 0, 1] : List ℕ).map (· * sampleCount) := by rw [hd]; decide
  exact drop_accounting rfl rfl rfl injective_place_initial (by decide +kernel) hs hds 8 b hb

end Session

end AirspyHF
