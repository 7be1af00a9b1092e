import AirspyHF.Device.Calls

/-!
# The rates that are listed can be selected

An application asks for the sample rates with `airspyhf_get_samplerates`, picks one, and hands it to
`airspyhf_set_samplerate` at some time.  That call takes numbers up to `MAX_SAMPLERATE_INDEX` for
indices, and looks up the others in the table.  Nothing that an application can do in between
changes the table, so the call finds the rate that was picked (`Target.listed_selectable`).
-/

namespace AirspyHF

namespace RateTable

variable (t : RateTable)

/-- `airspyhf_get_samplerates`: the number of the rates, or as many as are asked for. -/
def getSamplerates (len : UInt32) : Option (UInt32 ⊕ List UInt32) :=
  if len = 0 then some (.inl t.count)
  else if len ≤ t.count then some (.inr (t.rates.take len.toNat))
  else none

variable {t}

/-- A rate that was listed is found where it was first listed, unless it is taken for an index. -/
theorem resolve_of_listed {len : UInt32} {rates : List UInt32}
    (hlisted : t.getSamplerates len = some (.inr rates)) {x : UInt32} (hx : x ∈ rates)
    (hindex : maxSamplerateIndex < x) :
    rates.findIdx? (· == x) = some (t.resolve x) ∧
      ∃ h : t.resolve x < t.count.toNat, t.rate (t.resolve x) h = x := by
  rw [getSamplerates] at hlisted
  split_ifs at hlisted with hzero hle
  · simp at hlisted
  · obtain rfl := Sum.inr.inj (Option.some.inj hlisted)
    have hshorter : len.toNat ≤ t.count.toNat := UInt32.le_iff_toNat_le.1 hle
    have hlist : t.rates.take len.toNat = (t.rates.take t.count.toNat).take len.toNat := by
      rw [List.take_take, min_eq_left hshorter]
    obtain ⟨i, hi⟩ : ∃ i, (t.rates.take len.toNat).findIdx? (· == x) = some i :=
      Option.isSome_iff_exists.1 (List.findIdx?_isSome.trans
        (List.any_eq_true.2 ⟨x, hx, beq_self_eq_true x⟩))
    have hfound := hi
    rw [hlist, List.findIdx?_take] at hfound
    obtain ⟨j, hj, hguard⟩ := Option.bind_eq_some_iff.1 hfound
    obtain ⟨rfl, hlt⟩ := Option.guard_eq_some_iff.1 hguard
    have hresolve : t.resolve x = j := by
      rw [resolve, if_pos hindex, hj, Option.getD_some]
    have hcount : t.resolve x < t.count.toNat :=
      hresolve ▸ (of_decide_eq_true hlt).trans_le hshorter
    have hmem : x ∈ t.rates.take t.count.toNat := List.mem_of_mem_take (hlist ▸ hx)
    have hrate := (getElem?_rates hcount).symm.trans (getElem?_resolve hindex hmem)
    exact ⟨hresolve ▸ hi, hcount, Option.some.inj hrate⟩

end RateTable

namespace Target

variable {T : Target}

theorem setFreqDouble_table (T : Target) (freqHz : ℚ) (w : World) :
    (T.setFreqDouble freqHz w).2.device.table = w.device.table := by
  obtain ⟨status, es, d, heq, hrun⟩ := T.setFreqDouble_run freqHz w
  rw [heq]
  exact hrun.frame.table

theorem SamplerateRun.table {i : ℕ} {w : World} {status : Status} {es : List Exchange} {d : Device}
    (h : T.SamplerateRun i w status es d) : d.table = w.device.table := by
  cases h with
  | invalid | notRaised => rfl
  | rejected h es₀ d₀ hr =>
    obtain ⟨k, rfl⟩ := hr.device_eq
    rfl
  | switched h es₀ d₀ hr hf status es d ht =>
    obtain ⟨k, rfl⟩ := hr.device_eq
    exact ht.frame.table

/-- **Nothing changes the table.** -/
theorem exec_table (T : Target) (c : Call) (w : World) :
    (T.exec c w).2.device.table = w.device.table := by
  cases c with
  | setting s =>
    cases s with
    | setFreqDouble freqHz => exact T.setFreqDouble_table freqHz w
    | setFreq freqHz => exact T.setFreqDouble_table freqHz.toNat w
    | setCalibration ppb => exact T.setFreqDouble_table _ _
    | setSamplerate samplerate =>
      obtain ⟨status, es, d, heq, hrun⟩ := T.setSamplerate_run samplerate w
      rw [exec, execSetting, heq]
      exact hrun.table
    | setLibDsp flag => rfl
  | start callback ctx o =>
    obtain ⟨stream, he⟩ := start_device callback ctx o w
    rw [exec, he]
  | stop others =>
    obtain ⟨stream, he⟩ := stop_device others w
    rw [exec, he]
  | flashConfiguration =>
    obtain ⟨status, es, heq, -⟩ := flashConfiguration_run w
    rw [exec, heq]
    rfl

/-- A call for an index of the table fails only if a request does. -/
theorem SamplerateRun.of_lt {i : ℕ} {w : World} {status : Status} {es : List Exchange} {d : Device}
    (h : T.SamplerateRun i w status es d) (hi : i < w.device.table.count.toNat) :
    d.currentSamplerate = w.device.table.rate i hi ∧
      (status = .success → ∃ e ∈ es, e.request = setSamplerateRequest i ∧ e.Complete) ∧
      (status = .error → ∃ e ∈ es, ¬ e.Complete) := by
  cases h with
  | invalid h => exact absurd hi h
  | notRaised h hb hs =>
    exact ⟨rfl, nofun, fun _ => ⟨_, List.mem_singleton_self _, not_complete_setFreq hs⟩⟩
  | rejected h es₀ d₀ hr hf =>
    obtain ⟨k, rfl⟩ := hr.device_eq
    exact ⟨rfl, nofun, fun _ => ⟨_, List.mem_cons_self, fun hc => hc.not_failed hf⟩⟩
  | switched h es₀ d₀ hr hf status es d ht =>
    obtain ⟨k, rfl⟩ := hr.device_eq
    refine ⟨ht.frame.currentSamplerate, fun _ => ⟨_, List.mem_append_right _
      (List.mem_cons_of_mem _ List.mem_cons_self), rfl, ?_⟩, nofun⟩
    exact (Exchange.complete_iff_of_length_zero rfl).2 hf

/-- **The rates that are listed can be selected**: a rate above `MAX_SAMPLERATE_INDEX` that
`airspyhf_get_samplerates` has listed, whatever calls come in between, is recorded by
`airspyhf_set_samplerate`.  If the call succeeds, the receiver has taken the request for the index
that the rate has in the list, of which it sees the low 16 bits; the call fails only if a request
does. -/
theorem listed_selectable (T : Target) {w w' : World} {len x : UInt32} {rates : List UInt32}
    {calls : List Call} (hlisted : w.device.table.getSamplerates len = some (.inr rates))
    (hx : x ∈ rates) (hindex : RateTable.maxSamplerateIndex < x)
    (hrun : T.calls.run w calls = some w') :
    ∃ i status es d, rates.findIdx? (· == x) = some i ∧
      T.setSamplerate x w' = (status, w'.advance es d) ∧ d.currentSamplerate = x ∧
      (status = .success → ∃ e ∈ es, e.request = setSamplerateRequest i ∧
        e.request.index.toNat = i % 2 ^ 16 ∧ e.Complete) ∧
      (status = .error → ∃ e ∈ es, ¬ e.Complete) := by
  have htable : w'.device.table = w.device.table :=
    Machine.run_invariant (I := fun w' => w'.device.table = w.device.table)
      (fun w' c w'' h hs => by
        obtain rfl := Option.some.inj hs
        exact (T.exec_table c w').trans h) rfl hrun
  rw [← htable] at hlisted
  obtain ⟨hfound, hlt, hrate⟩ := RateTable.resolve_of_listed hlisted hx hindex
  obtain ⟨status, es, d, heq, hcall⟩ := T.setSamplerate_run x w'
  obtain ⟨hcurrent, hsuccess, herror⟩ := hcall.of_lt hlt
  refine ⟨_, status, es, d, hfound, heq, hcurrent.trans hrate, ?_, herror⟩
  intro hs
  obtain ⟨e, he, hrequest, hcomplete⟩ := hsuccess hs
  refine ⟨e, he, hrequest, ?_, hcomplete⟩
  rw [hrequest]
  exact UInt16.toNat_ofNat'

/-- An application lists two rates, tunes the receiver, and selects the second rate. -/
theorem listed_selectable_twoRates : ∃ w', Target.x8664.calls.run (.obliging .twoRates)
    [.setting (.setFreq 100000000)] = some w' ∧
      ∃ i status es d, ([768000, 192000] : List UInt32).findIdx? (· == 192000) = some i ∧
        Target.x8664.setSamplerate 192000 w' = (status, w'.advance es d) ∧
        d.currentSamplerate = 192000 ∧
        (status = .success → ∃ e ∈ es, e.request = setSamplerateRequest i ∧
          e.request.index.toNat = i % 2 ^ 16 ∧ e.Complete) ∧
        (status = .error → ∃ e ∈ es, ¬ e.Complete) := by
  obtain ⟨w', hrun⟩ : ∃ w', Target.x8664.calls.run (.obliging .twoRates)
      [.setting (.setFreq 100000000)] = some w' := ⟨_, rfl⟩
  have hlisted : (World.obliging .twoRates).device.table.getSamplerates 2 =
      some (.inr [768000, 192000]) := rfl
  have hx : (192000 : UInt32) ∈ ([768000, 192000] : List UInt32) := by decide
  exact ⟨w', hrun, listed_selectable .x8664 hlisted hx (by decide) hrun⟩

end Target

end AirspyHF
