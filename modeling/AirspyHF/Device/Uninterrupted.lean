import AirspyHF.Device.Streaming
import AirspyHF.Stream.Engine

/-!
# A start that nothing interrupts

`Stream.createIoThreads` executes `create_io_threads` at once, `Engine.appStep` one shared access
at a time.  If no other thread moves in between, they agree (`Engine.run_createIoThreads`): the
application thread takes the device to the state that `Stream.createIoThreads` computes, whatever
the outcomes of the submissions and of the thread creations.
-/

namespace AirspyHF

namespace Engine

variable {e : Engine} {o : StartOutcomes}

/-- Steps of the application thread only, with these outcomes. -/
def appSteps (oks : List Bool) : List EngineStep := oks.map .app

/-- Where the application thread stands after the loop of `prepare_transfers`. -/
def afterSubmits (e : Engine) (x : Status × Stream) : Engine :=
  e.appTo x.2 (if x.1 = .success then .reset else .idle false)

theorem run_app {ok : Bool} {oks : List Bool} (e' : Engine) {e'' : Engine}
    (hs : e.appStep ok = some e') (hr : machine.run e' (appSteps oks) = some e'') :
    machine.run e (appSteps (ok :: oks)) = some e'' :=
  Machine.run_cons.2 ⟨e', hs, hr⟩

/-- The loop of `prepare_transfers`, from transfer `i` on. -/
theorem run_prepareTransfers {i : ℕ} (hi : i ≤ transferCount) (happ : e.app = .submit i) :
    ∃ oks, machine.run e (appSteps oks) = some (e.afterSubmits
      (e.stream.prepareTransfers o.submits ((List.finRange transferCount).drop i))) := by
  -- induction on the number of transfers left
  obtain ⟨k, hk⟩ := Nat.exists_eq_add_of_le hi
  induction k generalizing e i with
  | zero =>
    have hlen : (List.finRange transferCount).length ≤ i := by
      rw [List.length_finRange]
      omega
    rw [List.drop_eq_nil_of_le hlen]
    refine ⟨[true], run_app (e.appTo e.stream .reset) ?_ rfl⟩
    rw [appStep, happ]
    exact dif_neg (by omega)
  | succ k ih =>
    have hlt : i < transferCount := by omega
    have hlen : i < (List.finRange transferCount).length := by
      rw [List.length_finRange]
      exact hlt
    rw [List.drop_eq_getElem_cons hlen, List.getElem_finRange]
    show ∃ oks, machine.run e (appSteps oks) = some (e.afterSubmits (e.stream.prepareTransfers
      o.submits (⟨i, hlt⟩ :: (List.finRange transferCount).drop (i + 1))))
    unfold Stream.prepareTransfers
    by_cases hs : e.stream.Submits (o.submits ⟨i, hlt⟩) ⟨i, hlt⟩
    · rw [if_pos hs]
      obtain ⟨oks, hrun⟩ := ih (e := e.appTo (e.stream.submit ⟨i, hlt⟩).countUp (.submit (i + 1)))
        (by omega) rfl (by omega)
      refine ⟨o.submits ⟨i, hlt⟩ :: true :: oks,
        run_app (e.appTo (e.stream.submit ⟨i, hlt⟩) (.submitted i)) ?_ (run_app _ rfl hrun)⟩
      rw [appStep, happ]
      simp only [dif_pos hlt, if_pos hs]
    · rw [if_neg hs]
      refine ⟨[o.submits ⟨i, hlt⟩], run_app (e.appTo e.stream (.idle false)) ?_ rfl⟩
      rw [appStep, happ]
      simp only [dif_pos hlt, if_neg hs]

/-- What `create_io_threads` does after the loop. -/
theorem run_afterSubmits (e : Engine) (o : StartOutcomes) (x : Status × Stream) :
    ∃ oks, machine.run (e.afterSubmits x) (appSteps oks) = some (e.appTo
      (match x with
        | (.success, s) =>
          let s := s.resetQueue
          if o.consumerCreated then
            let s := s.createConsumer
            if o.transferCreated then (Status.success, s.createTransfer) else (.error, s)
          else (.error, s)
        | (status, s) => (status, s)).2 (.idle false)) := by
  obtain ⟨status, s⟩ := x
  cases status with
  | success =>
    cases hc : o.consumerCreated with
    | true => exact ⟨[true, true, o.transferCreated], by cases o.transferCreated <;> rfl⟩
    | false => exact ⟨[true, false], rfl⟩
  | error | unsupported => exact ⟨[], rfl⟩

/-- **A start that nothing interrupts** ends in the state that `Stream.createIoThreads` computes,
for all outcomes of the submissions and of the thread creations. -/
theorem run_createIoThreads (o : StartOutcomes) {callback : Pointer}
    (happ : e.app = .startTest callback false) :
    ∃ oks, machine.run e (appSteps oks) =
      some (e.appTo (e.stream.createIoThreads o callback).2 (.idle false)) := by
  by_cases ha : e.stream.Admits
  · obtain ⟨oks₁, hrun₁⟩ := run_prepareTransfers (o := o)
      (e := e.appTo (e.stream.accept callback) (.submit 0)) (Nat.zero_le _) rfl
    obtain ⟨oks₂, hrun₂⟩ := run_afterSubmits e o
      ((e.stream.accept callback).prepareTransfers o.submits (List.finRange transferCount))
    refine ⟨true :: true :: (oks₁ ++ oks₂), ?_⟩
    rw [Stream.createIoThreads, if_pos ha]
    refine run_app (e.appTo e.stream (.startTest callback true)) ?_ (run_app
      (e.appTo (e.stream.accept callback) (.submit 0)) ?_ ?_)
    · rw [appStep, happ]
      simp only [ha.1]
      rfl
    · exact congrArg some (if_neg (by rw [appTo, ha.2]; nofun))
    · rw [appSteps, List.map_append]
      exact Machine.run_append.2 ⟨_, hrun₁, hrun₂⟩
  · rw [Stream.createIoThreads, if_neg ha]
    cases hs : e.stream.streaming with
    | true =>
      refine ⟨[true], run_app (e.appTo e.stream (.idle false)) ?_ rfl⟩
      rw [appStep, happ]
      simp only [hs]
      rfl
    | false =>
      have hr : e.stream.stopRequested = true := by
        by_contra hr
        exact ha ⟨hs, Bool.eq_false_iff.2 hr⟩
      refine ⟨[true, true], run_app (e.appTo e.stream (.startTest callback true)) ?_
        (run_app (e.appTo e.stream (.idle false)) (congrArg some (if_pos hr)) rfl)⟩
      rw [appStep, happ]
      simp only [hs]
      rfl

end Engine

end AirspyHF
