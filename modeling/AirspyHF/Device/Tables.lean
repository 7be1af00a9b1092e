import AirspyHF.Device.Flash
import AirspyHF.Usb.Memory

/-!
# The tables of the firmware

`airspyhf_open` asks the firmware for the sample rates, for their architectures and for the steps of
the attenuator.  A table takes two requests, one for the number of its entries and one for the
entries; the only test of a reply is that it has a byte.  Where a request fails the driver falls
back on defaults.

`RatesRun` and `AttStepsRun` list everything the two loaders can do.
-/

namespace AirspyHF

/-- `DEFAULT_SAMPLERATE`. -/
def defaultSamplerate : UInt32 := 768000

/-- `DEFAULT_ATT_STEP_COUNT`. -/
def defaultAttStepCount : UInt32 := 9

/-- `DEFAULT_ATT_STEP_INCREMENT`, in dB. -/
def defaultAttStepIncrement : ℕ := 6

/-- The bits of a natural number below `2 ^ 24` as a `float`. -/
def C.floatBits (n : ℕ) : UInt32 :=
  if n = 0 then 0
  else UInt32.ofNat ((127 + Nat.log2 n) * 2 ^ 23 + (n - 2 ^ Nat.log2 n) * 2 ^ (23 - Nat.log2 n))

/-- The table of sample rates in memory, with their architectures. -/
structure RateMemory where
  /-- `supported_samplerate_count`. -/
  count : UInt32
  /-- `supported_samplerates`. -/
  rates : Memory
  /-- `samplerate_architectures`. -/
  architectures : Memory

/-- The table of attenuator steps in memory. -/
structure AttMemory where
  /-- `supported_att_step_count`. -/
  count : UInt32
  /-- `supported_att_steps`. -/
  steps : Memory

/-! ### The requests -/

/-- A request for a table of `len` entries, or for the number of its entries if `len` is zero. -/
def tableRequest (command : VendorRequest) (len : UInt32) (length : UInt16) : Request :=
  ⟨command, 0, len.toUInt16, [], length⟩

/-- `wLength` of a request for `len` words or bytes: the product of 32 bits is cut to 16. -/
def tableLength (len : UInt32) : UInt16 := ((if 0 < len then len else 1) * 4).toUInt16

/-- `airspyhf_read_samplerates_from_fw`, as a request. -/
def samplerateRequest (len : UInt32) : Request :=
  tableRequest .getSamplerates len (tableLength len)

/-- `airspyhf_read_samplerate_architectures_from_fw`, as a request: it asks for four bytes for every
entry, although an entry has one. -/
def architectureRequest (len : UInt32) : Request :=
  tableRequest .getSamplerateArchitectures len (tableLength len)

/-- `airspyhf_read_att_steps_from_fw`, as a request: the product of 64 bits is cut to 16. -/
def attStepRequest (count : UInt32) : Request :=
  tableRequest .getAttSteps count
    (UInt16.ofNat (if 0 < count then count.toNat * 4 else 4))

/-- A reply to a request of `len` bytes passes the test of the driver: it has a byte. -/
def Reply.Passes (r : Reply) (len : ℕ) : Prop := 1 ≤ r.result len

instance (r : Reply) (len : ℕ) : Decidable (r.Passes len) := inferInstanceAs (Decidable (_ ≤ _))

/-- The request is issued, and what comes back is written to the block. -/
def Host.readTable (h : Host) (q : Request) (b : Memory) (p : Process) :
    Option (Bool × Memory × Process) :=
  (b.receive (h.bus p.log.length) q.length.toNat).map fun b =>
    (decide ((h.bus p.log.length).Passes q.length.toNat), b, p.issue h.bus q)

namespace Host

variable (h : Host)

/-! ### The loaders -/

/-- One default sample rate with zero IF. -/
def defaultRates (p : Process) : Option (RateMemory × Process) :=
  let (rates, p) := p.malloc h .defaultSamplerates 4
  (rates.store 4 fun i => (leBytes defaultSamplerate).getD i 0).bind fun rates =>
    let (architectures, p) := p.malloc h .defaultArchitectures 1
    (architectures.store 1 fun _ => 0).map fun architectures => (⟨1, rates, architectures⟩, p)

/-- The part of `airspyhf_open_init` that loads the sample rates and their architectures. -/
def loadRates (p : Process) : Option (RateMemory × Process) :=
  (h.readTable (samplerateRequest 0) .cleared p).bind fun (ok, word, p) =>
    if ok then
      let count := word.word 0
      let (rates, p) := p.malloc h .samplerates (count.toNat * 4)
      (h.readTable (samplerateRequest count) rates p).bind fun (ok, rates, p) =>
        if ok then
          let (architectures, p) := p.malloc h .architectures count.toNat
          (h.readTable (architectureRequest count) architectures p).bind
            fun (ok, architectures, p) =>
              if ok then some (⟨count, rates, architectures⟩, p)
              -- zero IF for all, for firmware that does not know the request
              else (architectures.store count.toNat fun _ => 0).map fun architectures =>
                (⟨count, rates, architectures⟩, p)
        else (p.free rates).bind h.defaultRates
    else h.defaultRates p

/-- The attenuator steps of the Airspy HF+ Discovery. -/
def defaultAttSteps (p : Process) : Option (AttMemory × Process) :=
  let (steps, p) := p.malloc h .defaultAttSteps (defaultAttStepCount.toNat * 4)
  (steps.store (defaultAttStepCount.toNat * 4) fun i =>
    (leBytes (C.floatBits (i / 4 * defaultAttStepIncrement))).getD (i % 4) 0).map fun steps =>
      (⟨defaultAttStepCount, steps⟩, p)

/-- The part of `airspyhf_open_init` that loads the attenuator steps. -/
def loadAttSteps (p : Process) : Option (AttMemory × Process) :=
  (h.readTable (attStepRequest 0) .cleared p).bind fun (ok, word, p) =>
    if ok then
      let count := word.word 0
      let (steps, p) := p.malloc h .attSteps (count.toNat * 4)
      (h.readTable (attStepRequest count) steps p).bind fun (ok, steps, p) =>
        if ok then some (⟨count, steps⟩, p) else (p.free steps).bind h.defaultAttSteps
    else h.defaultAttSteps p

end Host

/-! ### What the loaders do -/

/-- The number of entries that a reply announces: the word of the device structure, in which the
reply may have overwritten less than four bytes. -/
def Reply.announced (r : Reply) : UInt32 :=
  (Memory.cleared.overwrite (r.moved 4) .received r.data).word 0

theorem Reply.Passes.one_le_moved {r : Reply} {len : ℕ} (h : r.Passes len) : 1 ≤ r.moved len := by
  rw [Passes] at h
  by_cases hf : r.Failed
  · have := (result_of_failed hf len).1
    omega
  · rw [result_of_not_failed hf] at h
    omega

namespace Host

variable {h : Host} {p p' : Process}

theorem readTable_eq_some_iff {q : Request} {b b' : Memory} {ok : Bool} :
    h.readTable q b p = some (ok, b', p') ↔
      (h.bus p.log.length).moved q.length.toNat ≤ b.size ∧
      ok = decide ((h.bus p.log.length).Passes q.length.toNat) ∧
      b' = b.overwrite ((h.bus p.log.length).moved q.length.toNat) .received
        (h.bus p.log.length).data ∧
      p' = p.issue h.bus q := by
  simp only [readTable, Option.map_eq_some_iff, Memory.receive_eq_some_iff, Prod.mk.injEq]
  constructor
  · rintro ⟨_, ⟨hfits, rfl⟩, rfl, rfl, rfl⟩
    exact ⟨hfits, rfl, rfl, rfl⟩
  · rintro ⟨hfits, rfl, rfl, rfl⟩
    exact ⟨_, ⟨hfits, rfl⟩, rfl, rfl, rfl⟩

theorem readTable_cleared {q : Request} (hq : q.length = 4) (p : Process) :
    h.readTable q .cleared p = some (decide ((h.bus p.log.length).Passes 4),
      Memory.cleared.overwrite ((h.bus p.log.length).moved 4) .received (h.bus p.log.length).data,
      p.issue h.bus q) := by
  rw [readTable_eq_some_iff, hq]
  exact ⟨(h.bus p.log.length).moved_le 4, rfl, rfl, rfl⟩

theorem defaultRates_eq_some_iff {t : RateMemory} :
    h.defaultRates p = some (t, p') ↔
      h.grants .defaultSamplerates ∧ h.grants .defaultArchitectures ∧
      t = ⟨1, (h.fresh .defaultSamplerates 4).overwrite 4 .stored
          fun i => (leBytes defaultSamplerate).getD i 0,
        (h.fresh .defaultArchitectures 1).overwrite 1 .stored fun _ => 0⟩ ∧
      p' = (p.acquire .defaultSamplerates).acquire .defaultArchitectures := by
  simp only [defaultRates, Option.bind_eq_some_iff, Option.map_eq_some_iff,
    Memory.store_eq_some_iff, Prod.mk.injEq]
  constructor
  · rintro ⟨rates, ⟨hr, rfl⟩, architectures, ⟨ha, rfl⟩, rfl, rfl⟩
    have hg := Process.grants_of_le_size (by norm_num) hr
    have hg' := Process.grants_of_le_size (by norm_num) ha
    rw [Process.malloc_of_grants hg, Process.malloc_of_grants hg']
    exact ⟨hg, hg', rfl, rfl⟩
  · rintro ⟨hg, hg', rfl, rfl⟩
    rw [Process.malloc_of_grants hg, Process.malloc_of_grants hg']
    exact ⟨_, ⟨le_rfl, rfl⟩, _, ⟨le_rfl, rfl⟩, rfl, rfl⟩

theorem defaultAttSteps_eq_some_iff {t : AttMemory} :
    h.defaultAttSteps p = some (t, p') ↔
      h.grants .defaultAttSteps ∧
      t = ⟨9, (h.fresh .defaultAttSteps 36).overwrite 36 .stored fun i =>
        (leBytes (C.floatBits (i / 4 * defaultAttStepIncrement))).getD (i % 4) 0⟩ ∧
      p' = p.acquire .defaultAttSteps := by
  simp only [defaultAttSteps, Option.map_eq_some_iff, Memory.store_eq_some_iff, Prod.mk.injEq]
  constructor
  · rintro ⟨steps, ⟨hs, rfl⟩, rfl, rfl⟩
    have hg := Process.grants_of_le_size (by decide) hs
    rw [Process.malloc_of_grants hg]
    exact ⟨hg, rfl, rfl⟩
  · rintro ⟨hg, rfl, rfl⟩
    rw [Process.malloc_of_grants hg]
    exact ⟨_, ⟨le_rfl, rfl⟩, rfl, rfl⟩

variable (h p)

/-- The reply to the `k`-th request from now on. -/
def replyAt (k : ℕ) : Reply := h.bus (p.log.length + k)

/-- **What the loader of the sample rates can do**: the replies to its requests, and where they
lead. -/
inductive RatesRun : RateMemory → Process → Prop
  /-- The number of rates is refused. -/
  | noCount {t p'} (h₁ : ¬ (h.replyAt p 0).Passes 4)
      (hd : h.defaultRates (p.issue h.bus (samplerateRequest 0)) = some (t, p')) :
      RatesRun t p'
  /-- The rates are refused. -/
  | noRates {t p' count} (h₁ : (h.replyAt p 0).Passes 4)
      (hcount : (h.replyAt p 0).announced = count)
      (hfits : (h.replyAt p 1).moved (tableLength count).toNat ≤
        if h.grants .samplerates then count.toNat * 4 else 0)
      (h₂ : ¬ (h.replyAt p 1).Passes (tableLength count).toNat)
      (hd : h.defaultRates ((p.issue h.bus (samplerateRequest 0)).issue h.bus
        (samplerateRequest count)) = some (t, p')) :
      RatesRun t p'
  /-- The rates are loaded; the architectures are refused, and zero IF is assumed. -/
  | zeroIf {count} (h₁ : (h.replyAt p 0).Passes 4)
      (hcount : (h.replyAt p 0).announced = count)
      (hrates : h.grants .samplerates)
      (hfits : (h.replyAt p 1).moved (tableLength count).toNat ≤ count.toNat * 4)
      (h₂ : (h.replyAt p 1).Passes (tableLength count).toNat)
      (harchitectures : h.grants .architectures)
      (hfits' : (h.replyAt p 2).moved (tableLength count).toNat ≤ count.toNat)
      (h₃ : ¬ (h.replyAt p 2).Passes (tableLength count).toNat) :
      RatesRun
        ⟨count, (h.fresh .samplerates (count.toNat * 4)).overwrite
            ((h.replyAt p 1).moved (tableLength count).toNat) .received (h.replyAt p 1).data,
          ((h.fresh .architectures count.toNat).overwrite
            ((h.replyAt p 2).moved (tableLength count).toNat) .received
            (h.replyAt p 2).data).overwrite count.toNat .stored fun _ => 0⟩
        (((((p.issue h.bus (samplerateRequest 0)).acquire .samplerates).issue h.bus
          (samplerateRequest count)).acquire .architectures).issue h.bus
          (architectureRequest count))
  /-- Both tables are loaded. -/
  | loaded {count} (h₁ : (h.replyAt p 0).Passes 4)
      (hcount : (h.replyAt p 0).announced = count)
      (hrates : h.grants .samplerates)
      (hfits : (h.replyAt p 1).moved (tableLength count).toNat ≤ count.toNat * 4)
      (h₂ : (h.replyAt p 1).Passes (tableLength count).toNat)
      (harchitectures : h.grants .architectures)
      (hfits' : (h.replyAt p 2).moved (tableLength count).toNat ≤ count.toNat)
      (h₃ : (h.replyAt p 2).Passes (tableLength count).toNat) :
      RatesRun
        ⟨count, (h.fresh .samplerates (count.toNat * 4)).overwrite
            ((h.replyAt p 1).moved (tableLength count).toNat) .received (h.replyAt p 1).data,
          (h.fresh .architectures count.toNat).overwrite
            ((h.replyAt p 2).moved (tableLength count).toNat) .received (h.replyAt p 2).data⟩
        (((((p.issue h.bus (samplerateRequest 0)).acquire .samplerates).issue h.bus
          (samplerateRequest count)).acquire .architectures).issue h.bus
          (architectureRequest count))

/-- **What the loader of the attenuator steps can do.** -/
inductive AttStepsRun : AttMemory → Process → Prop
  /-- The number of steps is refused. -/
  | noCount {t p'} (h₁ : ¬ (h.replyAt p 0).Passes 4)
      (hd : h.defaultAttSteps (p.issue h.bus (attStepRequest 0)) = some (t, p')) :
      AttStepsRun t p'
  /-- The steps are refused. -/
  | noSteps {t p' count} (h₁ : (h.replyAt p 0).Passes 4)
      (hcount : (h.replyAt p 0).announced = count)
      (hfits : (h.replyAt p 1).moved (attStepRequest count).length.toNat ≤
        if h.grants .attSteps then count.toNat * 4 else 0)
      (h₂ : ¬ (h.replyAt p 1).Passes (attStepRequest count).length.toNat)
      (hd : h.defaultAttSteps ((p.issue h.bus (attStepRequest 0)).issue h.bus
        (attStepRequest count)) = some (t, p')) :
      AttStepsRun t p'
  /-- The table is loaded. -/
  | loaded {count} (h₁ : (h.replyAt p 0).Passes 4)
      (hcount : (h.replyAt p 0).announced = count)
      (hsteps : h.grants .attSteps)
      (hfits : (h.replyAt p 1).moved (attStepRequest count).length.toNat ≤ count.toNat * 4)
      (h₂ : (h.replyAt p 1).Passes (attStepRequest count).length.toNat) :
      AttStepsRun
        ⟨count, (h.fresh .attSteps (count.toNat * 4)).overwrite
          ((h.replyAt p 1).moved (attStepRequest count).length.toNat) .received
          (h.replyAt p 1).data⟩
        (((p.issue h.bus (attStepRequest 0)).acquire .attSteps).issue h.bus (attStepRequest count))

variable {h p}

theorem readTable_malloc_eq_some_iff {q : Request} {r : Resource} {n : ℕ} {b' : Memory} {ok : Bool} :
    h.readTable q (p.malloc h r n).1 (p.malloc h r n).2 = some (ok, b', p') ↔
      (h.replyAt p 0).moved q.length.toNat ≤ (if h.grants r then n else 0) ∧
      ok = decide ((h.replyAt p 0).Passes q.length.toNat) ∧
      b' = (p.malloc h r n).1.overwrite ((h.replyAt p 0).moved q.length.toNat) .received
        (h.replyAt p 0).data ∧
      p' = (p.malloc h r n).2.issue h.bus q := by
  rw [readTable_eq_some_iff, Process.malloc_log, Process.malloc_size]
  rfl

theorem grants_of_passes {reply : Reply} {r : Resource} {len n : ℕ} (hp : reply.Passes len)
    (hfits : reply.moved len ≤ if h.grants r then n else 0) : h.grants r := by
  have := hp.one_le_moved
  by_contra hg
  rw [if_neg hg] at hfits
  omega

/-- If no request is refused, both tables are loaded. -/
theorem RatesRun.eq_of_passes {t : RateMemory} (hr : h.RatesRun p t p')
    (h₁ : (h.replyAt p 0).Passes 4)
    (h₂ : (h.replyAt p 1).Passes (tableLength (h.replyAt p 0).announced).toNat)
    (h₃ : (h.replyAt p 2).Passes (tableLength (h.replyAt p 0).announced).toNat) :
    t = ⟨(h.replyAt p 0).announced,
      (h.fresh .samplerates ((h.replyAt p 0).announced.toNat * 4)).overwrite
        ((h.replyAt p 1).moved (tableLength (h.replyAt p 0).announced).toNat) .received
        (h.replyAt p 1).data,
      (h.fresh .architectures (h.replyAt p 0).announced.toNat).overwrite
        ((h.replyAt p 2).moved (tableLength (h.replyAt p 0).announced).toNat) .received
        (h.replyAt p 2).data⟩ := by
  cases hr with
  | noCount h₁' => exact absurd h₁ h₁'
  | noRates _ hcount _ h₂' =>
    subst hcount
    exact absurd h₂ h₂'
  | zeroIf _ hcount _ _ _ _ _ h₃' =>
    subst hcount
    exact absurd h₃ h₃'
  | loaded _ hcount =>
    subst hcount
    rfl

theorem loadAttSteps_run {t : AttMemory} (hl : h.loadAttSteps p = some (t, p')) :
    h.AttStepsRun p t p' := by
  rw [loadAttSteps, readTable_cleared rfl, Option.bind_some] at hl
  by_cases h₁ : (h.replyAt p 0).Passes 4
  · obtain ⟨⟨ok, steps, p₂⟩, hread, hl⟩ :=
      Option.bind_eq_some_iff.1 ((if_pos (decide_eq_true h₁)).symm.trans hl)
    obtain ⟨hfits, rfl, rfl, rfl⟩ := readTable_malloc_eq_some_iff.1 hread
    by_cases h₂ : (h.replyAt p 1).Passes (attStepRequest (h.replyAt p 0).announced).length.toNat
    · have hg := grants_of_passes h₂ hfits
      rw [if_pos hg] at hfits
      obtain ⟨rfl, rfl⟩ :=
        Prod.mk.inj (Option.some.inj ((if_pos (decide_eq_true h₂)).symm.trans hl))
      rw [Process.malloc_of_grants hg]
      exact .loaded h₁ rfl hg hfits h₂
    · have hd := (if_neg fun ho => h₂ (of_decide_eq_true ho)).symm.trans hl
      rw [Process.free_malloc (by rfl), Option.bind_some] at hd
      exact .noSteps h₁ rfl hfits h₂ hd
  · exact .noCount h₁ ((if_neg fun ho => h₁ (of_decide_eq_true ho)).symm.trans hl)

theorem AttStepsRun.load {t : AttMemory} (hr : h.AttStepsRun p t p') :
    h.loadAttSteps p = some (t, p') := by
  rw [loadAttSteps, readTable_cleared rfl, Option.bind_some]
  cases hr with
  | noCount h₁ hd => exact (if_neg fun ho => h₁ (of_decide_eq_true ho)).trans hd
  | noSteps h₁ hcount hfits h₂ hd =>
    subst hcount
    refine (if_pos (decide_eq_true h₁)).trans ?_
    refine Option.bind_eq_some_iff.2
      ⟨_, readTable_malloc_eq_some_iff.2 ⟨hfits, rfl, rfl, rfl⟩, ?_⟩
    refine (if_neg fun ho => h₂ (of_decide_eq_true ho)).trans ?_
    rw [Process.free_malloc (by rfl), Option.bind_some]
    exact hd
  | loaded h₁ hcount hg hfits h₂ =>
    subst hcount
    refine (if_pos (decide_eq_true h₁)).trans ?_
    refine Option.bind_eq_some_iff.2
      ⟨_, readTable_malloc_eq_some_iff.2 ⟨by rwa [if_pos hg], rfl, rfl, rfl⟩, ?_⟩
    refine (if_pos (decide_eq_true h₂)).trans ?_
    rw [Process.malloc_of_grants hg]
    rfl

theorem loadRates_run {t : RateMemory} (hl : h.loadRates p = some (t, p')) :
    h.RatesRun p t p' := by
  rw [loadRates, readTable_cleared rfl, Option.bind_some] at hl
  by_cases h₁ : (h.replyAt p 0).Passes 4
  · obtain ⟨⟨ok, rates, p₂⟩, hread, hl⟩ :=
      Option.bind_eq_some_iff.1 ((if_pos (decide_eq_true h₁)).symm.trans hl)
    obtain ⟨hfits, rfl, rfl, rfl⟩ := readTable_malloc_eq_some_iff.1 hread
    by_cases h₂ : (h.replyAt p 1).Passes (tableLength (h.replyAt p 0).announced).toNat
    · have hg := grants_of_passes h₂ hfits
      rw [if_pos hg] at hfits
      obtain ⟨⟨ok, architectures, p₃⟩, hread', hl⟩ :=
        Option.bind_eq_some_iff.1 ((if_pos (decide_eq_true h₂)).symm.trans hl)
      rw [Process.malloc_of_grants hg] at hread' hl
      obtain ⟨hfits', rfl, rfl, rfl⟩ := readTable_malloc_eq_some_iff.1 hread'
      by_cases h₃ : (h.replyAt p 2).Passes (tableLength (h.replyAt p 0).announced).toNat
      · have hg' := grants_of_passes h₃ hfits'
        rw [if_pos hg'] at hfits'
        obtain ⟨rfl, rfl⟩ :=
          Prod.mk.inj (Option.some.inj ((if_pos (decide_eq_true h₃)).symm.trans hl))
        rw [Process.malloc_of_grants hg']
        exact .loaded h₁ rfl hg hfits h₂ hg' hfits' h₃
      · have hset := (if_neg fun ho => h₃ (of_decide_eq_true ho)).symm.trans hl
        obtain ⟨_, hstore, heq⟩ := Option.map_eq_some_iff.1 hset
        obtain ⟨hsize, rfl⟩ := Memory.store_eq_some_iff.1 hstore
        obtain ⟨rfl, rfl⟩ := Prod.mk.inj heq
        have hpos : 0 < (h.replyAt p 0).announced.toNat := by
          have hle : 1 ≤ (h.replyAt p 0).announced.toNat * 4 := h₂.one_le_moved.trans hfits
          omega
        have hg' := Process.grants_of_le_size hpos hsize
        rw [if_pos hg'] at hfits'
        rw [Process.malloc_of_grants hg']
        exact .zeroIf h₁ rfl hg hfits h₂ hg' hfits' h₃
    · have hd := (if_neg fun ho => h₂ (of_decide_eq_true ho)).symm.trans hl
      rw [Process.free_malloc (by rfl), Option.bind_some] at hd
      exact .noRates h₁ rfl hfits h₂ hd
  · exact .noCount h₁ ((if_neg fun ho => h₁ (of_decide_eq_true ho)).symm.trans hl)

theorem RatesRun.load {t : RateMemory} (hr : h.RatesRun p t p') : h.loadRates p = some (t, p') := by
  rw [loadRates, readTable_cleared rfl, Option.bind_some]
  cases hr with
  | noCount h₁ hd => exact (if_neg fun ho => h₁ (of_decide_eq_true ho)).trans hd
  | noRates h₁ hcount hfits h₂ hd =>
    subst hcount
    refine (if_pos (decide_eq_true h₁)).trans ?_
    refine Option.bind_eq_some_iff.2
      ⟨_, readTable_malloc_eq_some_iff.2 ⟨hfits, rfl, rfl, rfl⟩, ?_⟩
    refine (if_neg fun ho => h₂ (of_decide_eq_true ho)).trans ?_
    rw [Process.free_malloc (by rfl), Option.bind_some]
    exact hd
  | zeroIf h₁ hcount hg hfits h₂ hg' hfits' h₃ =>
    subst hcount
    refine (if_pos (decide_eq_true h₁)).trans ?_
    refine Option.bind_eq_some_iff.2
      ⟨_, readTable_malloc_eq_some_iff.2 ⟨by rwa [if_pos hg], rfl, rfl, rfl⟩, ?_⟩
    refine (if_pos (decide_eq_true h₂)).trans ?_
    rw [Process.malloc_of_grants hg]
    refine Option.bind_eq_some_iff.2
      ⟨_, readTable_malloc_eq_some_iff.2 ⟨by rwa [if_pos hg'], rfl, rfl, rfl⟩, ?_⟩
    refine (if_neg fun ho => h₃ (of_decide_eq_true ho)).trans ?_
    rw [Process.malloc_of_grants hg']
    exact Option.map_eq_some_iff.2 ⟨_, Memory.store_eq_some_iff.2 ⟨le_rfl, rfl⟩, rfl⟩
  | loaded h₁ hcount hg hfits h₂ hg' hfits' h₃ =>
    subst hcount
    refine (if_pos (decide_eq_true h₁)).trans ?_
    refine Option.bind_eq_some_iff.2
      ⟨_, readTable_malloc_eq_some_iff.2 ⟨by rwa [if_pos hg], rfl, rfl, rfl⟩, ?_⟩
    refine (if_pos (decide_eq_true h₂)).trans ?_
    rw [Process.malloc_of_grants hg]
    refine Option.bind_eq_some_iff.2
      ⟨_, readTable_malloc_eq_some_iff.2 ⟨by rwa [if_pos hg'], rfl, rfl, rfl⟩, ?_⟩
    refine (if_pos (decide_eq_true h₃)).trans ?_
    rw [Process.malloc_of_grants hg']
    rfl

end Host

/-! ### What a run leaves -/

/-- The request is one for a table. -/
def Request.LoadsTable (q : Request) : Prop :=
  q.command = .getSamplerates ∨ q.command = .getSamplerateArchitectures ∨ q.command = .getAttSteps

/-- From `p` to `p'` the driver acquired `rs` and issued `n` requests, all of them for tables. -/
structure Process.Loads (p p' : Process) (rs : List Resource) (n : ℕ) : Prop where
  held : p'.held = ↑rs + p.held
  log : ∃ es, p'.log = es ++ p.log ∧ es.length = n ∧ ∀ e ∈ es, e.request.LoadsTable

namespace Process.Loads

variable {p p' p'' : Process} {rs rs' : List Resource} {n n' : ℕ}

theorem trans (h : p.Loads p' rs n) (h' : p'.Loads p'' rs' n') :
    p.Loads p'' (rs ++ rs') (n + n') := by
  obtain ⟨es, hes, hn, hload⟩ := h.log
  obtain ⟨es', hes', hn', hload'⟩ := h'.log
  refine ⟨?_, es' ++ es, ?_, ?_, ?_⟩
  · rw [h'.held, h.held, ← Multiset.coe_add, ← Multiset.add_assoc,
      Multiset.add_comm (rs' : Multiset Resource)]
  · rw [hes', hes, List.append_assoc]
  · rw [List.length_append, hn, hn', add_comm]
  · intro e he
    exact (List.mem_append.1 he).elim (hload' e) (hload e)

theorem acquire (p : Process) (r : Resource) : p.Loads (p.acquire r) [r] 0 where
  held := rfl
  log := ⟨[], rfl, rfl, List.forall_mem_nil _⟩

theorem issue (p : Process) (bus : ℕ → Reply) {q : Request} (hq : q.LoadsTable) :
    p.Loads (p.issue bus q) [] 1 where
  held := (Multiset.zero_add _).symm
  log := ⟨[_], rfl, rfl, List.forall_mem_singleton.2 hq⟩

end Process.Loads

/-- How many requests the loader of the sample rates issues. -/
def rateRequests (r : ℕ → Reply) : ℕ :=
  if (r 0).Passes 4 then
    if (r 1).Passes (tableLength (r 0).announced).toNat then 3 else 2
  else 1

/-- How many requests the loader of the attenuator steps issues. -/
def attStepRequests (r : ℕ → Reply) : ℕ := if (r 0).Passes 4 then 2 else 1

/-- The replies to the requests that follow those for the sample rates. -/
def afterRates (r : ℕ → Reply) (k : ℕ) : Reply := r (rateRequests r + k)

/-- How many requests both loaders issue. -/
def tableRequests (r : ℕ → Reply) : ℕ := rateRequests r + attStepRequests (afterRates r)

namespace Host

variable {h : Host} {p p' : Process}

theorem defaultRates_loads {t : RateMemory} (hd : h.defaultRates p = some (t, p')) :
    p.Loads p' (t.rates.owner.toList ++ t.architectures.owner.toList) 0 := by
  obtain ⟨-, -, rfl, rfl⟩ := defaultRates_eq_some_iff.1 hd
  exact (Process.Loads.acquire p _).trans (.acquire _ _)

theorem defaultAttSteps_loads {t : AttMemory} (hd : h.defaultAttSteps p = some (t, p')) :
    p.Loads p' t.steps.owner.toList 0 := by
  obtain ⟨-, rfl, rfl⟩ := defaultAttSteps_eq_some_iff.1 hd
  exact .acquire p _

theorem RatesRun.loads {t : RateMemory} (hr : h.RatesRun p t p') :
    p.Loads p' (t.rates.owner.toList ++ t.architectures.owner.toList)
      (rateRequests (h.replyAt p)) := by
  have hq (len : UInt32) : (samplerateRequest len).LoadsTable := .inl rfl
  have hq' (len : UInt32) : (architectureRequest len).LoadsTable := .inr (.inl rfl)
  unfold rateRequests
  cases hr with
  | noCount h₁ hd =>
    rw [if_neg h₁]
    exact (Process.Loads.issue p _ (hq _)).trans (defaultRates_loads hd)
  | noRates h₁ hcount hfits h₂ hd =>
    rw [if_pos h₁, hcount, if_neg h₂]
    exact (Process.Loads.issue p _ (hq _)).trans
      ((Process.Loads.issue _ _ (hq _)).trans (defaultRates_loads hd))
  | zeroIf h₁ hcount hg hfits h₂ =>
    rw [if_pos h₁, hcount, if_pos h₂]
    exact (Process.Loads.issue p _ (hq _)).trans ((Process.Loads.acquire _ _).trans
      ((Process.Loads.issue _ _ (hq _)).trans ((Process.Loads.acquire _ _).trans
        (Process.Loads.issue _ _ (hq' _)))))
  | loaded h₁ hcount hg hfits h₂ =>
    rw [if_pos h₁, hcount, if_pos h₂]
    exact (Process.Loads.issue p _ (hq _)).trans ((Process.Loads.acquire _ _).trans
      ((Process.Loads.issue _ _ (hq _)).trans ((Process.Loads.acquire _ _).trans
        (Process.Loads.issue _ _ (hq' _)))))

theorem AttStepsRun.loads {t : AttMemory} (hr : h.AttStepsRun p t p') :
    p.Loads p' t.steps.owner.toList (attStepRequests (h.replyAt p)) := by
  have hq (len : UInt32) : (attStepRequest len).LoadsTable := .inr (.inr rfl)
  unfold attStepRequests
  cases hr with
  | noCount h₁ hd =>
    rw [if_neg h₁]
    exact (Process.Loads.issue p _ (hq _)).trans (defaultAttSteps_loads hd)
  | noSteps h₁ hcount hfits h₂ hd =>
    rw [if_pos h₁]
    exact (Process.Loads.issue p _ (hq _)).trans
      ((Process.Loads.issue _ _ (hq _)).trans (defaultAttSteps_loads hd))
  | loaded h₁ =>
    rw [if_pos h₁]
    exact (Process.Loads.issue p _ (hq _)).trans ((Process.Loads.acquire _ _).trans
      (Process.Loads.issue _ _ (hq _)))

theorem defaultRates_size {t : RateMemory} (hd : h.defaultRates p = some (t, p')) :
    1 ≤ t.count.toNat ∧ t.rates.size = t.count.toNat * 4 ∧ t.architectures.size = t.count.toNat := by
  obtain ⟨-, -, rfl, -⟩ := defaultRates_eq_some_iff.1 hd
  exact ⟨le_rfl, rfl, rfl⟩

theorem RatesRun.size {t : RateMemory} (hr : h.RatesRun p t p') :
    1 ≤ t.count.toNat ∧ t.rates.size = t.count.toNat * 4 ∧ t.architectures.size = t.count.toNat := by
  have hone {r : Reply} {count : UInt32} {len : ℕ} (hp : r.Passes len)
      (hfits : r.moved len ≤ count.toNat * 4) : 1 ≤ count.toNat := by
    have := hp.one_le_moved
    omega
  cases hr with
  | noCount h₁ hd => exact defaultRates_size hd
  | noRates h₁ hcount hfits h₂ hd => exact defaultRates_size hd
  | zeroIf h₁ hcount hg hfits h₂ => exact ⟨hone h₂ hfits, rfl, rfl⟩
  | loaded h₁ hcount hg hfits h₂ => exact ⟨hone h₂ hfits, rfl, rfl⟩

theorem RatesRun.owner {t : RateMemory} (hr : h.RatesRun p t p') :
    ∃ r r', t.rates.owner = some r ∧ t.architectures.owner = some r' ∧ r.isBlock ∧ r'.isBlock := by
  have hdefault {q : Process} (hd : h.defaultRates q = some (t, p')) : ∃ r r',
      t.rates.owner = some r ∧ t.architectures.owner = some r' ∧ r.isBlock ∧ r'.isBlock := by
    obtain ⟨-, -, rfl, -⟩ := defaultRates_eq_some_iff.1 hd
    exact ⟨_, _, rfl, rfl, rfl, rfl⟩
  cases hr with
  | noCount h₁ hd => exact hdefault hd
  | noRates h₁ hcount hfits h₂ hd => exact hdefault hd
  | zeroIf => exact ⟨_, _, rfl, rfl, rfl, rfl⟩
  | loaded => exact ⟨_, _, rfl, rfl, rfl, rfl⟩

theorem AttStepsRun.owner {t : AttMemory} (hr : h.AttStepsRun p t p') :
    ∃ r, t.steps.owner = some r ∧ r.isBlock := by
  have hdefault {q : Process} (hd : h.defaultAttSteps q = some (t, p')) :
      ∃ r, t.steps.owner = some r ∧ r.isBlock := by
    obtain ⟨-, rfl, -⟩ := defaultAttSteps_eq_some_iff.1 hd
    exact ⟨_, rfl, rfl⟩
  cases hr with
  | noCount h₁ hd => exact hdefault hd
  | noSteps h₁ hcount hfits h₂ hd => exact hdefault hd
  | loaded => exact ⟨_, rfl, rfl⟩

theorem RatesRun.replyAt_eq {t : RateMemory} (hr : h.RatesRun p t p') :
    h.replyAt p' = afterRates (h.replyAt p) := by
  obtain ⟨es, hlog, hlength, -⟩ := hr.loads.log
  funext k
  rw [replyAt, hlog, List.length_append, hlength, add_comm (rateRequests _), add_assoc]
  rfl

theorem RatesRun.loads_both {rates : RateMemory} {attSteps : AttMemory} {p₁ : Process}
    (hr : h.RatesRun p rates p₁) (ha : h.AttStepsRun p₁ attSteps p') :
    p.Loads p' (rates.rates.owner.toList ++ rates.architectures.owner.toList ++
      attSteps.steps.owner.toList) (tableRequests (h.replyAt p)) := by
  have hloads := hr.loads.trans ha.loads
  rw [hr.replyAt_eq] at hloads
  exact hloads

end Host

end AirspyHF
