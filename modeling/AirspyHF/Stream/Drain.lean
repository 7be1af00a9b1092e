import AirspyHF.Stream.Threads
import Mathlib.Data.Finset.Card

/-!
# No transfer is left when a stop returns

`airspyhf_close` frees the transfers and their buffers after a stop, and a start submits all of
them again, so none may be in flight when `airspyhf_stop` returns.  The stop cancels them and then
polls for their callbacks, at most sixteen times and for a short time each.  It leaves none behind
(`Engine.drained_at_stop`) in every run in which

* no callback resubmits a transfer after the stop went past it (`Engine.NoLateResubmit`),
* the loop does not end between the resubmission of a transfer and its count
  (`Engine.NoLateCount`),
* the sixteenth poll does not return while a transfer is in flight (`Engine.NoExpiry`), and
* the threads of earlier sessions have exited (`Engine.StartsQuietly`).

The code ensures none of them: a callback that tested the flags before the stop cleared them
resubmits, and a poll may time out (`Engine.stop_undrained`).
-/

namespace AirspyHF

/-! ### Transfers in flight -/

namespace Stream

variable {s : Stream} {i : Fin transferCount}

theorem inFlight_eq_zero_iff : s.inFlight = 0 ↔ ∀ i, ¬ s.InFlight i := by
  simp [inFlight, Finset.filter_eq_empty_iff]

theorem completeTransfer_inFlight {j : Fin transferCount} :
    (s.completeTransfer i).InFlight j ↔ j ≠ i ∧ s.InFlight j := by
  by_cases hj : j = i <;> simp [InFlight, completeTransfer, hj]

theorem submit_inFlight {j : Fin transferCount} :
    (s.submit i).InFlight j ↔ j = i ∨ s.InFlight j := by
  by_cases hj : j = i <;> simp [InFlight, submit, hj]

theorem inFlight_completeTransfer (h : s.InFlight i) :
    (s.completeTransfer i).inFlight + 1 = s.inFlight := by
  have hset : Finset.univ.filter (s.completeTransfer i).InFlight =
      (Finset.univ.filter s.InFlight).erase i := by
    ext j
    simp only [Finset.mem_filter, Finset.mem_univ, true_and, Finset.mem_erase,
      completeTransfer_inFlight]
  rw [inFlight, hset, Finset.card_erase_add_one (by simpa using h), inFlight]

theorem inFlight_submit (h : s.transferStatus i = .idle) :
    (s.submit i).inFlight = s.inFlight + 1 := by
  have hset : Finset.univ.filter (s.submit i).InFlight =
      insert i (Finset.univ.filter s.InFlight) := by
    ext j
    simp only [Finset.mem_filter, Finset.mem_univ, true_and, Finset.mem_insert, submit_inFlight]
  rw [inFlight, hset, Finset.card_insert_of_notMem (by simpa [InFlight] using h), inFlight]

theorem inFlight_cancelTransfer (i : Fin transferCount) :
    (s.cancelTransfer i).inFlight = s.inFlight := by
  have hset : (s.cancelTransfer i).InFlight = s.InFlight := by
    funext j
    unfold cancelTransfer
    split
    · rename_i hi
      by_cases hj : j = i <;> simp [InFlight, hj, hi]
    · rfl
  simp only [inFlight, hset]

theorem cancelTransfer_transferLive : (s.cancelTransfer i).transferLive = s.transferLive := by
  unfold cancelTransfer
  split <;> rfl

end Stream

/-! ### The conditions -/

/-- A stop has cancelled transfer `i`, as far as it was in flight then. -/
def AppPc.PastCancel (i : ℕ) : AppPc → Prop
  | .cancel j => i < j
  | .drain _ | .poll _ | .signal | .joinTransfer | .joinConsumer | .finalPoll => True
  | _ => False

instance (i : ℕ) : DecidablePred (AppPc.PastCancel i)
  | .cancel j => inferInstanceAs (Decidable (i < j))
  | .drain _ | .poll _ | .signal | .joinTransfer | .joinConsumer | .finalPoll => .isTrue trivial
  | .idle _ | .startOff .. | .startOn .. | .startTest .. | .submit _ | .submitted _ | .reset
  | .createConsumer | .createTransfer | .stopOff | .kill | .halt => .isFalse id

/-- The drain loop ends if it finds no live transfer. -/
def AppPc.Drains (pc : AppPc) : Prop := ∃ n < transferCount, pc = .drain n

instance : DecidablePred AppPc.Drains := fun pc =>
  inferInstanceAs (Decidable (∃ n < transferCount, pc = .drain n))

namespace Engine

variable (s : Engine)

/-- The callback that libusb is running stands at `pc`. -/
def CallbackAt (pc : CallbackPc) : Prop := s.callback.map Prod.snd = some pc

instance (pc : CallbackPc) : Decidable (s.CallbackAt pc) := inferInstanceAs (Decidable (_ = _))

theorem callbackAt_of_eq {s : Engine} {hd : Handler} {pc : CallbackPc}
    (h : s.callback = some (hd, pc)) : s.CallbackAt pc := by
  rw [CallbackAt, h]
  rfl

/-- A callback does not resubmit a transfer that a stop went past. -/
def NoLateResubmit : EngineStep → Prop
  | .callback _ => ∀ i, s.CallbackAt (.submit i) → ¬ s.app.PastCancel i
  | _ => True

/-- The drain loop does not find the count at zero while a callback has resubmitted a transfer and
not counted it. -/
def NoLateCount : EngineStep → Prop
  | .app _ => s.app.Drains → s.CallbackAt .countUp → 0 < s.stream.transferLive
  | _ => True

/-- The last poll that the drain loop makes does not time out with transfers in flight. -/
def NoExpiry : EngineStep → Prop
  | .app _ => s.app = .poll (transferCount - 1) → ∀ i, ¬ s.stream.InFlight i
  | _ => True

/-- The conditions on a step. -/
def Timely (l : EngineStep) : Prop :=
  s.StartsQuietly l ∧ s.NoLateResubmit l ∧ s.NoLateCount l ∧ s.NoExpiry l

instance : (l : EngineStep) → Decidable (s.NoLateResubmit l)
  | .callback _ => inferInstanceAs (Decidable (∀ _, _ → _))
  | .callStart .. | .callStop | .app _ | .consumer .. | .pump .. | .dispatch .. => .isTrue trivial

instance : (l : EngineStep) → Decidable (s.NoLateCount l)
  | .app _ => inferInstanceAs (Decidable (_ → _ → _))
  | .callStart .. | .callStop | .consumer .. | .pump .. | .dispatch .. | .callback _ =>
    .isTrue trivial

instance : (l : EngineStep) → Decidable (s.NoExpiry l)
  | .app _ => inferInstanceAs (Decidable (_ → _))
  | .callStart .. | .callStop | .consumer .. | .pump .. | .dispatch .. | .callback _ =>
    .isTrue trivial

instance (l : EngineStep) : Decidable (s.Timely l) := inferInstanceAs (Decidable (_ ∧ _ ∧ _ ∧ _))

/-! ### The invariant -/

/-- How far `transfer_live` is ahead of the transfers in flight because of the callback. -/
def callbackAhead : Option (Handler × CallbackPc) → ℤ
  | some (_, .account ..) => 1
  | some (_, .countUp) => -1
  | _ => 0

/-- How far `transfer_live` is ahead because of the application thread. -/
def appAhead : AppPc → ℤ
  | .submitted _ => -1
  | _ => 0

/-- What a stop knows about the transfers still in flight. -/
def Draining (inFlight : ℕ) : AppPc → Prop
  | .drain n => n < transferCount ∨ inFlight = 0
  | .poll n => n < transferCount
  | .signal | .joinTransfer | .joinConsumer | .finalPoll | .idle true => inFlight = 0
  | _ => True

theorem Draining.mono {m n : ℕ} {pc : AppPc} (h : Draining n pc) (hle : m ≤ n) :
    Draining m pc := by
  unfold Draining at h ⊢
  split at h <;> first | trivial | omega

end Engine

/-- The invariant behind `Engine.drained_at_stop`. -/
structure Drained (s : Engine) : Prop where
  live : s.stream.transferLive =
    s.stream.inFlight + Engine.callbackAhead s.callback + Engine.appAhead s.app
  draining : Engine.Draining s.stream.inFlight s.app

namespace Drained

open Engine

variable {s s' : Engine}

theorem initial : Drained .initial := ⟨by decide +kernel, trivial⟩

theorem appTo (h : Drained s) {stream : Stream} {pc : AppPc}
    (hf : stream.inFlight = s.stream.inFlight)
    (hl : stream.transferLive = s.stream.transferLive) (ha : appAhead pc = appAhead s.app)
    (hd : Draining s.stream.inFlight pc) : Drained (s.appTo stream pc) where
  live := by
    change stream.transferLive = stream.inFlight + callbackAhead s.callback + appAhead pc
    rw [hf, hl, ha]
    exact h.live
  draining := by
    change Draining stream.inFlight pc
    rwa [hf]

theorem app {ok : Bool} (h : Drained s) (hm : s.AppMoves s') (ht : s.Timely (.app ok))
    (hq : Threads s) : Drained s' := by
  obtain ⟨-, -, hcount, hpoll⟩ := ht
  have hlive := h.live
  have hdr := h.draining
  cases hm with
  | offTaken happ | offRefused happ | onTaken happ | onRefused happ | testStreaming happ
  | testRefused happ | accept happ | submitRefused happ | submitDone happ | reset happ
  | createConsumer happ | consumerRefused happ | createTransfer happ | transferRefused happ
  | stopOff happ | kill happ | halt happ =>
    exact h.appTo rfl rfl (by rw [happ]; rfl) trivial
  -- `stop_requested` is set until the stop itself clears it
  | killSkip happ hs => exact absurd (hs.symm.trans (hq.stopping (happ ▸ trivial))) nofun
  | submit happ hi hs =>
    refine ⟨?_, trivial⟩
    change s.stream.transferLive = (s.stream.submit _).inFlight + callbackAhead s.callback + -1
    rw [Stream.inFlight_submit hs.1, hlive, happ]
    change _ + _ + (0 : ℤ) = _
    push_cast
    ring
  | counted happ =>
    refine ⟨?_, trivial⟩
    change s.stream.transferLive + 1 = s.stream.inFlight + callbackAhead s.callback + 0
    rw [hlive, happ]
    change _ + _ + (-1 : ℤ) + 1 = _
    ring
  | cancel happ hi =>
    exact h.appTo (Stream.inFlight_cancelTransfer _) Stream.cancelTransfer_transferLive
      (by rw [happ]; rfl) trivial
  | cancelDone happ =>
    exact h.appTo rfl rfl (by rw [happ]; rfl) (.inl (by decide))
  | poll happ hn => exact h.appTo rfl rfl (by rw [happ]; rfl) hn
  | @drained n happ hn =>
    refine h.appTo rfl rfl (by rw [happ]; rfl) ?_
    change s.stream.inFlight = 0
    rw [happ] at hdr
    rcases hdr with hlt | hzero
    · -- the count is zero, and no callback is about to raise it
      have hzero : ¬ 0 < s.stream.transferLive := fun hpos => hn ⟨hlt, hpos⟩
      have hahead : 0 ≤ callbackAhead s.callback := by
        unfold callbackAhead
        split
        · exact Int.one_nonneg
        · rename_i hc
          exact absurd (hcount ⟨n, hlt, happ⟩ (callbackAt_of_eq hc)) hzero
        · exact le_rfl
      rw [happ] at hlive
      change _ = _ + _ + (0 : ℤ) at hlive
      omega
    · exact hzero
  | @pollReturn n happ =>
    rw [happ] at hdr
    refine h.appTo rfl rfl (by rw [happ]; rfl) ?_
    -- after the sixteenth poll the loop ends whatever the count says
    rcases Nat.lt_or_eq_of_le (Nat.succ_le_of_lt hdr) with hlt | heq
    · exact .inl hlt
    · refine .inr (Stream.inFlight_eq_zero_iff.2 (hpoll ?_))
      rw [happ, ← heq]
      rfl
  | signal happ | joinTransfer happ | skipTransfer happ | joinConsumer happ | skipConsumer happ
  | stopped happ =>
    rw [happ] at hdr
    exact h.appTo rfl rfl (by rw [happ]; rfl) hdr

theorem callback_eq_none (hq : Threads s) (happ : s.app = .idle true) : s.callback = none :=
  hq.callback_eq_none (happ ▸ trivial) (by rw [happ]; exact id)

theorem draining_resubmit {ok : Bool} {hd : Handler} {i : Fin transferCount}
    (hc : s.callback = some (hd, .submit i)) (ht : s.NoLateResubmit (.callback ok))
    (hq : Threads s) (n : ℕ) : Draining n s.app := by
  have hpast : ¬ s.app.PastCancel i := ht i (callbackAt_of_eq hc)
  cases happ : s.app with
  | idle stopped =>
    cases stopped with
    | false => trivial
    | true => exact absurd (hc.symm.trans (callback_eq_none hq happ)) nofun
  | drain | poll | signal | joinTransfer | joinConsumer | finalPoll =>
    exact absurd (happ ▸ trivial) hpast
  | _ => trivial

theorem callbackMove {ok : Bool} (h : Drained s) {hd : Handler} {pc : CallbackPc}
    (hc : s.callback = some (hd, pc)) (hm : s.CallbackMoves hd pc s')
    (ht : s.Timely (.callback ok)) (hq : Threads s) : Drained s' := by
  have hlive := h.live
  rw [hc] at hlive
  cases hm with
  | account =>
    refine ⟨?_, h.draining⟩
    change s.stream.transferLive - 1 = s.stream.inFlight + 0 + appAhead s.app
    rw [hlive]
    change _ + (1 : ℤ) + _ - 1 = _
    ring
  | testStreaming | testHalted | testStopped | testReceive | testFail | receive | submitFail
  | fail =>
    exact ⟨hlive, h.draining⟩
  | submit hs =>
    refine ⟨?_, draining_resubmit hc ht.2.1 hq _⟩
    change s.stream.transferLive = (s.stream.submit _).inFlight + -1 + appAhead s.app
    rw [Stream.inFlight_submit hs.1, hlive]
    change _ + (0 : ℤ) + _ = _
    push_cast
    ring
  | countUp =>
    refine ⟨?_, h.draining⟩
    change s.stream.transferLive + 1 = s.stream.inFlight + 0 + appAhead s.app
    rw [hlive]
    change _ + (-1 : ℤ) + _ + 1 = _
    ring

theorem dispatch (h : Drained s) (hc : s.callback = none) (hd : Handler) {i : Fin transferCount}
    (hi : s.stream.InFlight i) (complete : Bool) : Drained (s.dispatch hd i complete) := by
  have hcard := Stream.inFlight_completeTransfer hi
  have hlive := h.live
  rw [hc] at hlive
  -- the transfer leaves the flight before its callback takes it off the count
  refine ⟨?_, h.draining.mono (by change (s.stream.completeTransfer i).inFlight ≤ _; omega)⟩
  change s.stream.transferLive = (s.stream.completeTransfer i).inFlight + 1 + appAhead s.app
  rw [hlive, ← hcard]
  change _ + (0 : ℤ) + _ = _
  push_cast
  ring

/-- **One step** keeps the invariant under the conditions. -/
theorem step {l : EngineStep} (h : Drained s) (hq : Threads s) (ht : s.Timely l)
    (hs : machine.step s l = some s') : Drained s' := by
  cases moves_of_step hs with
  | callStart happ => exact h.appTo rfl rfl (by rw [happ]; rfl) trivial
  | callStop happ => exact h.appTo rfl rfl (by rw [happ]; rfl) trivial
  | app hm => exact h.app hm ht hq
  | consumer hpc hm =>
    obtain ⟨-, streaming, queue, mutex, pc', rfl⟩ := hm.frame
    exact ⟨h.live, h.draining⟩
  | pump hpc hm =>
    obtain ⟨-, -, streaming, pc', rfl⟩ := hm.frame
    exact ⟨h.live, h.draining⟩
  | dispatch hc hh hi => exact h.dispatch hc _ hi _
  | callback hc hm => exact h.callbackMove hc hm ht hq

end Drained

/-! ### Runs -/

namespace Engine

/-- **A stop that returns in time leaves no transfer in flight**: the count of live transfers is
zero, and the next start can submit all of them. -/
theorem drained_at_stop {steps : List EngineStep} {s : Engine}
    (ht : machine.Meets Timely initial steps) (hs : machine.run initial steps = some s)
    (happ : s.app = .idle true) :
    (∀ i, ¬ s.stream.InFlight i) ∧ s.stream.transferLive = 0 ∧ ∀ i, s.stream.Submits true i := by
  obtain ⟨hq, h⟩ := ht.invariant (I := fun s => Threads s ∧ Drained s)
    (fun _ _ _ ⟨hq, h⟩ ht hst => ⟨hq.step ht.1 hst, h.step hq ht hst⟩)
    ⟨.initial, .initial⟩ hs
  have hlive := h.live
  have hdr := h.draining
  rw [happ] at hdr
  have hzero : s.stream.inFlight = 0 := hdr
  rw [Drained.callback_eq_none hq happ, happ, hzero] at hlive
  have hnone := Stream.inFlight_eq_zero_iff.1 hzero
  exact ⟨hnone, hlive, fun i => ⟨not_not.1 (hnone i), rfl⟩⟩

/-- A stop whose first poll delivers the callbacks of all transfers. -/
def drainSteps : List EngineStep :=
  .callStop :: List.replicate (5 + transferCount) (.app true) ++
    (List.finRange transferCount).flatMap (fun i =>
      .dispatch .app i true :: List.replicate 2 (.callback true)) ++
    List.replicate 2 (.app true) ++ joinSteps

/-- Such a stop leaves no transfer in flight. -/
theorem drainSteps_timely : ∃ s,
    machine.run initial (startSteps ++ settleSteps ++ drainSteps) = some s ∧
      ∀ i, s.stream.Submits true i := by
  have hrun : (machine.run initial (startSteps ++ settleSteps ++ drainSteps)).map
      (fun s => s.app) = some (.idle true) := by decide +kernel
  obtain ⟨s, hs, happ⟩ := Option.map_eq_some_iff.1 hrun
  exact ⟨s, hs, (drained_at_stop (by decide +kernel) hs happ).2.2⟩

/-- A stop during whose request all transfers but the first complete.  The callback of the first
one finds `stop_requested` cleared and `streaming` not cleared yet, and resubmits its transfer
after the stop has cancelled all and found none alive. -/
def lateSteps : List EngineStep :=
  .callStop :: (List.finRange transferCount).tail.flatMap (fun i =>
      .dispatch (.pump 0) i true :: List.replicate 3 (.callback true)) ++
    List.replicate 2 (.app true) ++
    .dispatch (.pump 0) 0 true :: List.replicate 3 (.callback true) ++
    List.replicate (3 + transferCount) (.app true) ++ List.replicate 3 (.callback true) ++ joinSteps

/-- A stop returns with all transfers in flight when its polls time out, and with one when a
callback resubmits its transfer late. -/
theorem stop_undrained :
    (∃ s, machine.run initial (startSteps ++ settleSteps ++ stopSteps) = some s ∧
      s.app = .idle true ∧ s.stream.inFlight = transferCount ∧
        s.stream.transferLive = transferCount) ∧
    ∃ s, machine.run initial (startSteps ++ settleSteps ++ lateSteps) = some s ∧
      s.app = .idle true ∧ s.stream.inFlight = 1 ∧ s.stream.transferLive = 1 := by
  have hstop : (machine.run initial (startSteps ++ settleSteps ++ stopSteps)).map
      (fun s => (s.app, s.stream.inFlight, s.stream.transferLive)) =
        some (.idle true, transferCount, ↑transferCount) := by decide +kernel
  have hlate : (machine.run initial (startSteps ++ settleSteps ++ lateSteps)).map
      (fun s => (s.app, s.stream.inFlight, s.stream.transferLive)) =
        some (.idle true, 1, 1) := by decide +kernel
  obtain ⟨s, hs, hend⟩ := Option.map_eq_some_iff.1 hstop
  obtain ⟨s', hs', hend'⟩ := Option.map_eq_some_iff.1 hlate
  obtain ⟨happ, hcounts⟩ := Prod.mk.inj hend
  obtain ⟨happ', hcounts'⟩ := Prod.mk.inj hend'
  exact ⟨⟨s, hs, happ, Prod.mk.inj hcounts⟩, s', hs', happ', Prod.mk.inj hcounts'⟩

end Engine

end AirspyHF
