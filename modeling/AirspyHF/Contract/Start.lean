import AirspyHF.Device.Calls

/-!
# A start that fails

`airspyhf_start` clears the drop counters, switches the receiver off and on, stores the context,
raises the streaming flag, submits the transfers and creates the threads, in this order, and
returns at the first failure without undoing anything.  `Stream.Unchanged` says what a failing
start ought to leave alone; `FailsCleanly` is the exact condition under which it does
(`start_kept_iff`): in particular no failure after the flag was raised is clean.
-/

namespace AirspyHF

namespace Stream

/-- Nothing about streaming changed. -/
structure Unchanged (s s' : Stream) : Prop where
  streaming : s'.streaming = s.streaming
  stopRequested : s'.stopRequested = s.stopRequested
  transferStatus : s'.transferStatus = s.transferStatus
  consumers : s'.consumers = s.consumers
  pumps : s'.pumps = s.pumps
  consumerThreadRunning : s'.consumerThreadRunning = s.consumerThreadRunning
  transferThreadRunning : s'.transferThreadRunning = s.transferThreadRunning
  callback : s'.callback = s.callback
  ctx : s'.ctx = s.ctx
  droppedBuffers : s'.queue.droppedBuffers = s.queue.droppedBuffers
  droppedBuffersQueue : s'.queue.droppedBuffersQueue = s.queue.droppedBuffersQueue

/-- No drop is pending, and none is recorded for a slot. -/
def NoDrops (s : Stream) : Prop :=
  s.queue.droppedBuffers = 0 ∧ ∀ i, s.queue.droppedBuffersQueue i = 0

instance (s : Stream) : Decidable s.NoDrops := inferInstanceAs (Decidable (_ ∧ _))

theorem unchanged_clearDrops_iff {s : Stream} {ctx : Pointer} :
    s.Unchanged { s.clearDrops with ctx := ctx } ↔ s.NoDrops ∧ ctx = s.ctx := by
  constructor
  · intro h
    exact ⟨⟨h.droppedBuffers.symm, fun i => (congrFun h.droppedBuffersQueue i).symm⟩, h.ctx⟩
  · rintro ⟨⟨hd, hq⟩, rfl⟩
    exact ⟨rfl, rfl, rfl, rfl, rfl, rfl, rfl, rfl, rfl, hd.symm,
      funext fun i => (hq i).symm⟩

/-- Every step of `create_io_threads` succeeds. -/
def AllStarted (s : Stream) (o : StartOutcomes) : Prop :=
  (∀ i, s.Submits (o.submits i) i) ∧ o.consumerCreated = true ∧ o.transferCreated = true

instance (s : Stream) (o : StartOutcomes) : Decidable (s.AllStarted o) :=
  inferInstanceAs (Decidable (_ ∧ _))

variable {s : Stream} (o : StartOutcomes) (callback : Pointer)

/-- Once the flags let it proceed, `create_io_threads` leaves the streaming flag raised, whether
it succeeds or not. -/
theorem createIoThreads_streaming (h : s.Admits) :
    (s.createIoThreads o callback).2.streaming = true := by
  have hs : ((s.accept callback).prepareTransfers o.submits
      (List.finRange transferCount)).2.streaming = true := prepareTransfers_streaming
  rw [createIoThreads, if_pos h]
  generalize prepareTransfers o.submits _ (s.accept callback) = x at hs ⊢
  obtain ⟨status, s'⟩ := x
  cases status with
  | success =>
    simp only
    split
    · split <;> exact hs
    · exact hs
  | error => exact hs
  | unsupported => exact hs

theorem createIoThreads_success_iff (h : s.Admits) :
    (s.createIoThreads o callback).1 = .success ↔ s.AllStarted o := by
  have hp : ((s.accept callback).prepareTransfers o.submits
      (List.finRange transferCount)).1 = .success ↔
        ∀ i, (s.accept callback).Submits (o.submits i) i := by
    simpa using prepareTransfers_success_iff (List.nodup_finRange transferCount)
  rw [createIoThreads, if_pos h, AllStarted]
  generalize prepareTransfers o.submits _ (s.accept callback) = x at hp ⊢
  obtain ⟨status, s'⟩ := x
  change _ ↔ (∀ i, (s.accept callback).Submits (o.submits i) i) ∧ _
  rw [← hp]
  cases status with
  | success =>
    simp only [true_and]
    cases o.consumerCreated <;> cases o.transferCreated <;> simp
  | error => simp
  | unsupported => simp

end Stream

/-- A start that fails leaves streaming alone. -/
def StartKept (w : World) (x : Status × World) : Prop :=
  x.1 ≠ .success → w.device.stream.Unchanged x.2.device.stream

/-- **The exact condition for a clean failure.**  If a mode request fails, no drop was recorded; if
the flags refuse the start, moreover the context is the old one; otherwise the start does not
fail. -/
def FailsCleanly (ctx : Pointer) (o : StartOutcomes) (w : World) : Prop :=
  let s := w.device.stream
  if (w.bus w.log.length).Failed ∨ (w.bus (w.log.length + 1)).Failed then s.NoDrops
  else if s.Admits then s.AllStarted o
  else s.NoDrops ∧ ctx = s.ctx

/-- **A start that fails changes nothing about streaming, exactly when `FailsCleanly` holds.** -/
theorem start_kept_iff (callback ctx : Pointer) (o : StartOutcomes) (w : World) :
    StartKept w (start callback ctx o w) ↔ FailsCleanly ctx o w := by
  have hclear : w.device.stream.Unchanged w.device.stream.clearDrops ↔
      w.device.stream.NoDrops :=
    Stream.unchanged_clearDrops_iff.trans (and_iff_left rfl)
  have h := start_run callback ctx o w
  generalize start callback ctx o w = x at h ⊢
  cases h with
  | offRefused h =>
    rw [FailsCleanly, if_pos (.inl h), StartKept, forall_prop_of_true nofun]
    exact hclear
  | onRefused h h' =>
    rw [FailsCleanly, if_pos (.inr h'), StartKept, forall_prop_of_true nofun]
    exact hclear
  | threads h h' =>
    rw [FailsCleanly, if_neg (not_or.2 ⟨h, h'⟩)]
    by_cases ha : w.device.stream.Admits
    · have ha' : ({ w.device.stream.clearDrops with ctx := ctx } : Stream).Admits := ha
      have hs := Stream.createIoThreads_success_iff o callback ha'
      have hf := Stream.createIoThreads_streaming o callback ha'
      rw [if_pos ha]
      refine ⟨?_, fun hall hne => absurd (hs.2 hall) hne⟩
      intro hk
      -- a failure here would leave the flag raised that was clear before
      by_contra hall
      have hstreaming := (hk fun he => hall (hs.1 he)).streaming
      exact absurd (hf.symm.trans (hstreaming.trans ha.1)) nofun
    · have hrefused :
          ({ w.device.stream.clearDrops with ctx := ctx } : Stream).createIoThreads o callback =
            (.error, { w.device.stream.clearDrops with ctx := ctx }) := if_neg ha
      rw [if_neg ha, StartKept, hrefused, forall_prop_of_true nofun]
      exact Stream.unchanged_clearDrops_iff

/-- The bus refuses the fourth transfer. -/
def fourthRefused : StartOutcomes := ⟨fun i => i ≠ 3, true, true⟩

/-- When the fourth transfer is refused, an idle device is left streaming without threads, with
three transfers in flight, and refuses to start. -/
theorem fourthRefused_streaming :
    let w := World.obliging .fallback
    let x := start 1 2 fourthRefused w
    x.1 = .error ∧ w.device.stream.isStreaming = false ∧
      x.2.device.stream.isStreaming = true ∧ x.2.device.stream.InFlight 2 ∧
      ¬ x.2.device.stream.Admits ∧ ¬ StartKept w x := by
  refine ⟨by decide +kernel, by decide +kernel, by decide +kernel, by decide +kernel,
    by decide +kernel, ?_⟩
  intro h
  exact absurd (h (by decide +kernel)).streaming (by decide +kernel)

end AirspyHF
