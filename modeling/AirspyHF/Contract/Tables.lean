import AirspyHF.Device.Opening

/-!
# The tables of an open device

The driver indexes its tables up to the number of entries that the firmware announced.  After an
`airspyhf_open_init` that succeeds every entry should be one that the firmware sent in full, or a
default.  The only test of a reply is that it has a byte, and what is asked for need not fit where
it is written, so this depends on the replies: `RatesFit` and `AttStepsFit` say that none writes past
the end of its block, `RatesFull` and `AttStepsFull` that every table comes in full.
-/

namespace AirspyHF

/-! ### The replies -/

section Replies

variable (r : ℕ → Reply)

/-- The replies to the requests for the sample rates fit where they are written. -/
def RatesFit : Prop :=
  (r 0).Passes 4 →
    (r 1).moved (tableLength (r 0).announced).toNat ≤ 4 * (r 0).announced.toNat ∧
    ((r 1).Passes (tableLength (r 0).announced).toNat →
      (r 2).moved (tableLength (r 0).announced).toNat ≤ (r 0).announced.toNat)

/-- The tables of the sample rates come in full, unless they are refused. -/
def RatesFull : Prop :=
  (r 0).Passes 4 → (r 1).Passes (tableLength (r 0).announced).toNat →
    4 * (r 0).announced.toNat ≤ (r 1).moved (tableLength (r 0).announced).toNat ∧
    ((r 2).Passes (tableLength (r 0).announced).toNat →
      (r 0).announced.toNat ≤ (r 2).moved (tableLength (r 0).announced).toNat)

/-- The replies to the requests for the attenuator steps fit where they are written. -/
def AttStepsFit : Prop :=
  (r 0).Passes 4 →
    (r 1).moved (attStepRequest (r 0).announced).length.toNat ≤ 4 * (r 0).announced.toNat

/-- The table of the attenuator steps comes in full, unless it is refused. -/
def AttStepsFull : Prop :=
  (r 0).Passes 4 → (r 1).Passes (attStepRequest (r 0).announced).length.toNat →
    4 * (r 0).announced.toNat ≤ (r 1).moved (attStepRequest (r 0).announced).length.toNat

/-- No reply to a request for a table is too long. -/
def TablesFit : Prop := RatesFit r ∧ AttStepsFit (afterRates r)

/-- No table comes in part. -/
def TablesFull : Prop := RatesFull r ∧ AttStepsFull (afterRates r)

end Replies

instance (r : ℕ → Reply) : Decidable (RatesFit r) := inferInstanceAs (Decidable (_ → _))

instance (r : ℕ → Reply) : Decidable (RatesFull r) := inferInstanceAs (Decidable (_ → _ → _))

instance (r : ℕ → Reply) : Decidable (AttStepsFit r) := inferInstanceAs (Decidable (_ → _))

instance (r : ℕ → Reply) : Decidable (AttStepsFull r) := inferInstanceAs (Decidable (_ → _ → _))

instance (r : ℕ → Reply) : Decidable (TablesFit r) := inferInstanceAs (Decidable (_ ∧ _))

instance (r : ℕ → Reply) : Decidable (TablesFull r) := inferInstanceAs (Decidable (_ ∧ _))

/-- All memory that is asked for is there. -/
def Host.Allocates (h : Host) : Prop := ∀ r : Resource, r.isBlock → h.grants r

/-! ### The entries -/

/-- Every announced entry of both tables came in full or was set by the driver. -/
def RateMemory.EntriesKnown (t : RateMemory) : Prop :=
  (∀ i < t.count.toNat, t.rates.Known (4 * i) 4) ∧
    ∀ i < t.count.toNat, t.architectures.Known (1 * i) 1

/-- Every announced entry came in full or was set by the driver. -/
def AttMemory.EntriesKnown (t : AttMemory) : Prop :=
  ∀ i < t.count.toNat, t.steps.Known (4 * i) 4

/-- The tables of an open device are well formed. -/
structure Opened.WellFormed (o : Opened) : Prop where
  one_le_count : 1 ≤ o.rates.count.toNat
  rates : o.rates.EntriesKnown
  attSteps : o.attSteps.EntriesKnown
  table : o.device.table = o.rates.table
  currentSamplerate : o.device.currentSamplerate = o.rates.rates.word 0
  isLowIf : o.device.isLowIf = o.rates.architectures.byte 0

/-- `airspyhf_open_init` returns, and if it succeeds the tables are well formed. -/
def Host.TablesSound (h : Host) (serialNumber : UInt64) (fd : ℤ) (p : Process) : Prop :=
  ∃ status o p', h.openInit serialNumber fd p = some (status, o, p') ∧
    (status = .success → ∃ device ∈ o, device.WellFormed)

namespace Host

variable {h : Host} {p p' : Process} {r : Resource} {size n k count : ℕ} {origin : Origin}
  {value : ℕ → UInt8}

theorem known_entries_iff (hk : 0 < k) (ho : origin ≠ .fresh) (hn : n ≤ size) :
    (∀ i < count, ((h.fresh r size).overwrite n origin value).Known (k * i) k) ↔
      k * count ≤ n := by
  constructor
  · intro hknown
    cases count with
    | zero => exact Nat.zero_le n
    | succ c =>
      rw [Nat.mul_succ]
      exact Memory.le_of_known_fresh hk (hknown c c.lt_succ_self)
  · intro hle i hi
    refine Memory.known_overwrite ?_ hn ho
    calc k * i + k = k * (i + 1) := rfl
      _ ≤ k * count := Nat.mul_le_mul_left k hi
      _ ≤ n := hle

theorem entriesKnown_of_defaultRates {t : RateMemory} (hd : h.defaultRates p = some (t, p')) :
    t.EntriesKnown := by
  obtain ⟨-, -, rfl, -⟩ := defaultRates_eq_some_iff.1 hd
  exact ⟨(known_entries_iff (by decide) (by decide) le_rfl).2 le_rfl,
    (known_entries_iff (by decide) (by decide) le_rfl).2 le_rfl⟩

theorem entriesKnown_of_defaultAttSteps {t : AttMemory}
    (hd : h.defaultAttSteps p = some (t, p')) : t.EntriesKnown := by
  obtain ⟨-, rfl, -⟩ := defaultAttSteps_eq_some_iff.1 hd
  exact (known_entries_iff (by decide) (by decide) le_rfl).2 le_rfl

/-- The entries of the tables of rates are known exactly if no table came in part. -/
theorem RatesRun.entriesKnown_iff {t : RateMemory} (hr : h.RatesRun p t p') :
    t.EntriesKnown ↔ RatesFull (h.replyAt p) := by
  cases hr with
  | noCount h₁ hd =>
    exact iff_of_true (entriesKnown_of_defaultRates hd) fun h₁' => absurd h₁' h₁
  | noRates h₁ hcount hfits h₂ hd =>
    subst hcount
    exact iff_of_true (entriesKnown_of_defaultRates hd) fun _ h₂' => absurd h₂' h₂
  | zeroIf h₁ hcount hg hfits h₂ hg' hfits' h₃ =>
    subst hcount
    have hzero : ∀ i < (h.replyAt p 0).announced.toNat, (Memory.overwrite
        ((h.fresh .architectures (h.replyAt p 0).announced.toNat).overwrite
          ((h.replyAt p 2).moved (tableLength (h.replyAt p 0).announced).toNat) .received
          (h.replyAt p 2).data)
        (h.replyAt p 0).announced.toNat .stored fun _ => 0).Known (1 * i) 1 := fun i hi =>
      Memory.known_overwrite (by omega) le_rfl (by decide)
    rw [RateMemory.EntriesKnown, known_entries_iff (by decide) (by decide) hfits]
    constructor
    · rintro ⟨hfull, -⟩ - -
      exact ⟨hfull, fun h₃' => absurd h₃' h₃⟩
    · intro hfull
      exact ⟨(hfull h₁ h₂).1, hzero⟩
  | loaded h₁ hcount hg hfits h₂ hg' hfits' h₃ =>
    subst hcount
    rw [RateMemory.EntriesKnown, known_entries_iff (by decide) (by decide) hfits,
      known_entries_iff (by decide) (by decide) hfits', one_mul]
    constructor
    · rintro ⟨hfull, hfull'⟩ - -
      exact ⟨hfull, fun _ => hfull'⟩
    · intro hfull
      exact ⟨(hfull h₁ h₂).1, (hfull h₁ h₂).2 h₃⟩

/-- A table that is known came in a reply of less than `2 ^ 16` bytes, or is the default. -/
theorem RatesRun.count_lt {t : RateMemory} (hr : h.RatesRun p t p') (hknown : t.EntriesKnown) :
    t.count.toNat < 2 ^ 14 := by
  have hfull := hr.entriesKnown_iff.1 hknown
  have hdefault : ∀ {p p'}, h.defaultRates p = some (t, p') → t.count.toNat < 2 ^ 14 := by
    intro p p' hd
    obtain ⟨-, -, rfl, -⟩ := defaultRates_eq_some_iff.1 hd
    exact (by decide : (1 : UInt32).toNat < 2 ^ 14)
  cases hr with
  | noCount h₁ hd => exact hdefault hd
  | noRates h₁ hcount hfits h₂ hd => exact hdefault hd
  | zeroIf h₁ hcount hg hfits h₂ | loaded h₁ hcount hg hfits h₂ =>
    subst hcount
    have hmoved := (h.replyAt p 1).moved_le (tableLength (h.replyAt p 0).announced).toNat
    have hlength := (tableLength (h.replyAt p 0).announced).toNat_lt
    have hcame := (hfull h₁ h₂).1
    dsimp only
    omega

theorem AttStepsRun.entriesKnown_iff {t : AttMemory} (hr : h.AttStepsRun p t p') :
    t.EntriesKnown ↔ AttStepsFull (h.replyAt p) := by
  cases hr with
  | noCount h₁ hd =>
    exact iff_of_true (entriesKnown_of_defaultAttSteps hd) fun h₁' => absurd h₁' h₁
  | noSteps h₁ hcount hfits h₂ hd =>
    subst hcount
    exact iff_of_true (entriesKnown_of_defaultAttSteps hd) fun _ h₂' => absurd h₂' h₂
  | loaded h₁ hcount hg hfits h₂ =>
    subst hcount
    rw [AttMemory.EntriesKnown, known_entries_iff (by decide) (by decide) hfits]
    exact ⟨fun hfull _ _ => hfull, fun hfull => hfull h₁ h₂⟩

/-! ### The runs -/

theorem exists_defaultRates (ha : h.Allocates) (p : Process) :
    ∃ t p', h.defaultRates p = some (t, p') :=
  ⟨_, _, defaultRates_eq_some_iff.2 ⟨ha _ rfl, ha _ rfl, rfl, rfl⟩⟩

theorem exists_defaultAttSteps (ha : h.Allocates) (p : Process) :
    ∃ t p', h.defaultAttSteps p = some (t, p') :=
  ⟨_, _, defaultAttSteps_eq_some_iff.2 ⟨ha _ rfl, rfl, rfl⟩⟩

/-- The sample rates are loaded, in one way or another, exactly if no reply is too long. -/
theorem exists_ratesRun_iff (ha : h.Allocates) :
    (∃ t p', h.RatesRun p t p') ↔ RatesFit (h.replyAt p) := by
  have hgrants : h.grants .samplerates := ha _ rfl
  constructor
  · rintro ⟨t, p', hr⟩ h₁
    cases hr with
    | noCount h₁' => exact absurd h₁ h₁'
    | noRates _ hcount hfits h₂ =>
      subst hcount
      rw [if_pos hgrants, mul_comm] at hfits
      exact ⟨hfits, fun h₂' => absurd h₂' h₂⟩
    | zeroIf _ hcount hg hfits h₂ hg' hfits' =>
      subst hcount
      rw [mul_comm] at hfits
      exact ⟨hfits, fun _ => hfits'⟩
    | loaded _ hcount hg hfits h₂ hg' hfits' =>
      subst hcount
      rw [mul_comm] at hfits
      exact ⟨hfits, fun _ => hfits'⟩
  · intro hfit
    by_cases h₁ : (h.replyAt p 0).Passes 4
    case neg =>
      obtain ⟨t, p', hd⟩ := exists_defaultRates ha (p.issue h.bus (samplerateRequest 0))
      exact ⟨t, p', .noCount h₁ hd⟩
    obtain ⟨hfits, hfit⟩ := hfit h₁
    rw [mul_comm] at hfits
    by_cases h₂ : (h.replyAt p 1).Passes (tableLength (h.replyAt p 0).announced).toNat
    case neg =>
      obtain ⟨t, p', hd⟩ := exists_defaultRates ha ((p.issue h.bus (samplerateRequest 0)).issue
        h.bus (samplerateRequest (h.replyAt p 0).announced))
      exact ⟨t, p', .noRates h₁ rfl (by rwa [if_pos hgrants]) h₂ hd⟩
    by_cases h₃ : (h.replyAt p 2).Passes (tableLength (h.replyAt p 0).announced).toNat
    · exact ⟨_, _, .loaded h₁ rfl hgrants hfits h₂ (ha _ rfl) (hfit h₂) h₃⟩
    · exact ⟨_, _, .zeroIf h₁ rfl hgrants hfits h₂ (ha _ rfl) (hfit h₂) h₃⟩

/-- The attenuator steps are loaded exactly if no reply is too long. -/
theorem exists_attStepsRun_iff (ha : h.Allocates) :
    (∃ t p', h.AttStepsRun p t p') ↔ AttStepsFit (h.replyAt p) := by
  have hgrants : h.grants .attSteps := ha _ rfl
  constructor
  · rintro ⟨t, p', hr⟩ h₁
    cases hr with
    | noCount h₁' => exact absurd h₁ h₁'
    | noSteps _ hcount hfits =>
      subst hcount
      rwa [if_pos hgrants, mul_comm] at hfits
    | loaded _ hcount hg hfits =>
      subst hcount
      rwa [mul_comm] at hfits
  · intro hfit
    by_cases h₁ : (h.replyAt p 0).Passes 4
    case neg =>
      obtain ⟨t, p', hd⟩ := exists_defaultAttSteps ha (p.issue h.bus (attStepRequest 0))
      exact ⟨t, p', .noCount h₁ hd⟩
    have hfits := hfit h₁
    rw [mul_comm] at hfits
    by_cases h₂ : (h.replyAt p 1).Passes (attStepRequest (h.replyAt p 0).announced).length.toNat
    · exact ⟨_, _, .loaded h₁ rfl hgrants hfits h₂⟩
    · obtain ⟨t, p', hd⟩ := exists_defaultAttSteps ha ((p.issue h.bus (attStepRequest 0)).issue
        h.bus (attStepRequest (h.replyAt p 0).announced))
      exact ⟨t, p', .noSteps h₁ rfl (by rwa [if_pos hgrants]) h₂ hd⟩

variable {serialNumber : UInt64} {fd : ℤ} {i : ℕ}

theorem Opening.table_eq {p₁ p₂ : Process} {o : Opened} (ho : h.Opening i p p₁ p₂ o p') :
    o.device.table = o.rates.table := by
  obtain ⟨ppb, vctcxo, options, hdevice⟩ := loadConfig_frame h.stack (h.booted o.rates p₂)
  rw [ho.device, hdevice]
  rfl

/-- The tables of an open device are well formed exactly if none came in part. -/
theorem Opening.wellFormed_iff {p₁ p₂ : Process} {o : Opened} (ho : h.Opening i p p₁ p₂ o p') :
    o.WellFormed ↔ TablesFull (h.replyAt p) := by
  have hrates : o.rates.EntriesKnown ↔ RatesFull (h.replyAt p) := ho.rates.entriesKnown_iff
  have hatt : o.attSteps.EntriesKnown ↔ AttStepsFull (afterRates (h.replyAt p)) := by
    rw [ho.attSteps.entriesKnown_iff, ho.rates.replyAt_eq]
    rfl
  obtain ⟨ppb, vctcxo, options, hdevice⟩ := loadConfig_frame h.stack (h.booted o.rates p₂)
  rw [TablesFull, ← hrates, ← hatt]
  constructor
  · intro hw
    exact ⟨hw.rates, hw.attSteps⟩
  · rintro ⟨hr, ha⟩
    refine ⟨ho.rates.size.1, hr, ha, ho.table_eq, ?_, ?_⟩
    · rw [ho.device, hdevice]
      rfl
    · rw [ho.device, hdevice]
      rfl

theorem opening_of_fit (ha : h.Allocates) (hf : h.Finds serialNumber fd i)
    (hfit : TablesFit (h.replyAt p)) : ∃ o p' p₁ p₂,
      h.openInit serialNumber fd p = some (.success, some o, p') ∧ h.Opening i p p₁ p₂ o p' := by
  obtain ⟨rates, p₁, hrates⟩ := (exists_ratesRun_iff (p :=
    ((p.acquire .device).acquire .context).acquire (.handle i)) ha).2 hfit.1
  have hfit' : AttStepsFit (h.replyAt p₁) := by
    rw [hrates.replyAt_eq]
    exact hfit.2
  obtain ⟨attSteps, p₂, hatt⟩ := (exists_attStepsRun_iff ha).2 hfit'
  have hblocks : ∀ r ∈ checkedBlocks, h.grants r := fun r hr => ha r (isBlock_of_checked hr)
  obtain ⟨o, p', heq, ho, -⟩ := initDevice_of_granted hrates hatt hblocks (ha _ rfl)
  rw [openInit_of_finds hf]
  exact ⟨o, p', p₁, p₂, heq, ho⟩

/-- With memory for everything, opening a device that is found returns only if no reply is too
long. -/
theorem fit_of_openInit (ha : h.Allocates) (hf : h.Finds serialNumber fd i)
    {r : Status × Option Opened × Process} (hr : h.openInit serialNumber fd p = some r) :
    TablesFit (h.replyAt p) := by
  rw [openInit_of_finds hf] at hr
  obtain ⟨rates, p₁, attSteps, p₂, hrates, hatt⟩ := runs_of_initDevice hr
  have hfit := (exists_ratesRun_iff ha).1 ⟨rates, p₁, hrates⟩
  have hfit' := (exists_attStepsRun_iff ha).1 ⟨attSteps, p₂, hatt⟩
  rw [hrates.replyAt_eq] at hfit'
  exact ⟨hfit, hfit'⟩

/-- **When the tables are well formed**: `airspyhf_open_init` returns and leaves well-formed tables
exactly if it finds no device, or every reply fits where it is written and no table comes in part. -/
theorem tablesSound_iff (ha : h.Allocates) : h.TablesSound serialNumber fd p ↔
    (h.Reaches serialNumber fd → TablesFit (h.replyAt p) ∧ TablesFull (h.replyAt p)) := by
  constructor
  · rintro ⟨status, o, p', hr, hwell⟩ hreach
    obtain ⟨i, hf⟩ := exists_finds_iff.2 hreach
    refine ⟨fit_of_openInit ha hf hr, ?_⟩
    cases openInit_run hr with
    | unfound hf' => exact absurd hf (hf' i)
    | refused hf' hg => exact absurd (fun r hr => ha r (isBlock_of_checked hr)) hg
    | opened hf' hg ho =>
      obtain ⟨device, hmem, hw⟩ := hwell rfl
      obtain rfl := Option.mem_some_iff.1 hmem
      exact ho.wellFormed_iff.1 hw
  · intro hfull
    by_cases hf : ∃ i, h.Finds serialNumber fd i
    · obtain ⟨hfit, hfull⟩ := hfull (exists_finds_iff.1 hf)
      obtain ⟨i, hf⟩ := hf
      obtain ⟨o, p', p₁, p₂, heq, ho⟩ := opening_of_fit ha hf hfit
      exact ⟨_, _, _, heq, fun _ => ⟨o, rfl, ho.wellFormed_iff.2 hfull⟩⟩
    · obtain ⟨status, hs, heq⟩ := openInit_of_unfound (p := p) (not_exists.1 hf)
      exact ⟨_, _, _, heq, fun hsuccess => absurd hsuccess hs⟩

/-- A host with one receiver, which answers the first requests as given and then no more. -/
def answering (replies : List Reply) : Host :=
  .obliging [.receiver []] (fun _ => true) fun n => replies.getD n .empty

/-- A receiver that refuses every table is opened with the defaults. -/
theorem tablesSound_silent : (answering []).TablesSound 0 (-1) ⟨0, []⟩ :=
  (tablesSound_iff fun _ _ => rfl).2 fun _ => by decide

/-- A receiver that announces two rates and sends one. -/
def halfTable : Host :=
  answering [⟨none, 4, fun i => if i = 0 then 2 else 0⟩, ⟨none, 4, fun _ => 0⟩]

/-- The receiver is opened, and the second rate is what the memory held before. -/
theorem not_tablesSound : ∃ o p',
    halfTable.openInit 0 (-1) ⟨0, []⟩ = some (.success, some o, p') ∧ ¬ o.WellFormed := by
  have hf : halfTable.Finds 0 (-1) 0 := ⟨rfl, rfl, rfl, by decide⟩
  obtain ⟨o, p', p₁, p₂, heq, ho⟩ := opening_of_fit (p := ⟨0, []⟩) (fun _ _ => rfl) hf (by decide)
  refine ⟨o, p', heq, ?_⟩
  rw [ho.wellFormed_iff]
  decide

end Host

end AirspyHF
