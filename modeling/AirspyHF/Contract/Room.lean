import AirspyHF.Contract.Tables
import AirspyHF.Machine.Traced

/-!
# The room for what the driver asks for

Every request that reads names a number of bytes and a block to put them into.  While a device is
opened there are up to six such requests.  `Host.openInitTraced` is `airspyhf_open_init` with these
requests as its events.

* `Host.openInitTraced_result` : it is the same program.
* `Host.requestsFit_iff` : every request asks for at most as many bytes as its block holds, unless a
  count is zero or the architectures are asked for: four bytes are asked for every architecture,
  which has one.
* `Host.exists_openInit_of_requestsFit` : where they all do, opening returns.
-/

namespace AirspyHF

/-- A request that reads, and the size of the block that it reads into. -/
structure Transfer where
  request : Request
  room : ℕ

/-- No more is asked for than there is room for. -/
def Transfer.Fits (t : Transfer) : Prop := t.request.length.toNat ≤ t.room

namespace Host

variable (h : Host)

/-- `Host.readTable`, traced. -/
def readTableTraced (q : Request) (b : Memory) (p : Process) :
    Traced Transfer (Bool × Memory × Process) :=
  .emit ⟨q, b.size⟩ (h.readTable q b p)

/-- `Host.loadRates`, traced. -/
def loadRatesTraced (p : Process) : Traced Transfer (RateMemory × Process) :=
  (h.readTableTraced (samplerateRequest 0) .cleared p).bind fun (ok, word, p) =>
    if ok then
      let count := word.word 0
      let (rates, p) := p.malloc h .samplerates (count.toNat * 4)
      (h.readTableTraced (samplerateRequest count) rates p).bind fun (ok, rates, p) =>
        if ok then
          let (architectures, p) := p.malloc h .architectures count.toNat
          (h.readTableTraced (architectureRequest count) architectures p).bind
            fun (ok, architectures, p) =>
              if ok then .lift (some (⟨count, rates, architectures⟩, p))
              else .lift ((architectures.store count.toNat fun _ => 0).map fun architectures =>
                (⟨count, rates, architectures⟩, p))
        else .lift ((p.free rates).bind h.defaultRates)
    else .lift (h.defaultRates p)

/-- `Host.loadAttSteps`, traced. -/
def loadAttStepsTraced (p : Process) : Traced Transfer (AttMemory × Process) :=
  (h.readTableTraced (attStepRequest 0) .cleared p).bind fun (ok, word, p) =>
    if ok then
      let count := word.word 0
      let (steps, p) := p.malloc h .attSteps (count.toNat * 4)
      (h.readTableTraced (attStepRequest count) steps p).bind fun (ok, steps, p) =>
        if ok then .lift (some (⟨count, steps⟩, p))
        else .lift ((p.free steps).bind h.defaultAttSteps)
    else .lift (h.defaultAttSteps p)

/-- `Host.initDevice`, traced.  The page is read into a local array. -/
def initDeviceTraced (handle : ℕ) (p : Process) :
    Traced Transfer (Status × Option Opened × Process) :=
  (h.loadRatesTraced p).bind fun (rates, p) =>
    (Traced.lift (rates.rates.word? 0)).bind fun currentSamplerate =>
      (Traced.lift (rates.architectures.byte? 0)).bind fun isLowIf =>
        (h.loadAttStepsTraced p).bind fun (attSteps, p) =>
          match h.allocateTransfers p with
          | (none, p) =>
            .lift ((p.openExit handle).bind fun p =>
              (p.release .device).map fun p => (.error, none, p))
          | (some transfers, p) =>
            let w := loadConfig h.stack ⟨rates.device currentSamplerate isLowIf, p.log, h.bus⟩
            .emit ⟨configReadRequest, configSize⟩
              ((h.createBalancer ⟨p.held, w.log⟩).map fun (balancer, p) =>
                (.success, some ⟨w.device, handle, rates, attSteps, transfers, balancer⟩, p))

/-- `Host.openInit`, traced. -/
def openInitTraced (serialNumber : UInt64) (fd : ℤ) (p : Process) :
    Traced Transfer (Status × Option Opened × Process) :=
  if h.grants .device then
    let p := p.acquire .device
    if h.grants .context then
      let p := p.acquire .context
      (Traced.lift (if fd = fileDescriptorUnused then h.openDevice serialNumber p
        else some (.unsupported, none, p))).bind fun (result, handle, p) =>
          match handle with
          | none =>
            .lift ((p.release .context).bind fun p =>
              (p.release .device).map fun p => (result, none, p))
          | some i => h.initDeviceTraced i p
    else .lift ((p.release .device).map fun p => (.error, none, p))
  else .lift (some (.error, none, p))

/-! ### The traced programs are the programs -/

theorem loadRatesTraced_result (p : Process) :
    (h.loadRatesTraced p).result = h.loadRates p := by
  rw [loadRatesTraced, loadRates, Traced.result_bind]
  congr 1
  funext x
  obtain ⟨ok, word, p⟩ := x
  cases ok with
  | false => rfl
  | true =>
    simp only [if_true, Traced.result_bind]
    congr 1
    funext x
    obtain ⟨ok, rates, p⟩ := x
    cases ok with
    | false => rfl
    | true =>
      simp only [if_true, Traced.result_bind]
      congr 1
      funext x
      obtain ⟨ok, architectures, p⟩ := x
      cases ok <;> rfl

theorem loadAttStepsTraced_result (p : Process) :
    (h.loadAttStepsTraced p).result = h.loadAttSteps p := by
  rw [loadAttStepsTraced, loadAttSteps, Traced.result_bind]
  congr 1
  funext x
  obtain ⟨ok, word, p⟩ := x
  cases ok with
  | false => rfl
  | true =>
    simp only [if_true, Traced.result_bind]
    congr 1
    funext x
    obtain ⟨ok, steps, p⟩ := x
    cases ok <;> rfl

theorem initDeviceTraced_result (i : ℕ) (p : Process) :
    (h.initDeviceTraced i p).result = h.initDevice i p := by
  rw [initDeviceTraced, initDevice, Traced.result_bind, loadRatesTraced_result]
  congr 1
  funext x
  obtain ⟨rates, p⟩ := x
  simp only [Traced.result_bind, Traced.result_lift, loadAttStepsTraced_result]
  congr 1
  funext currentSamplerate
  congr 1
  funext isLowIf
  congr 1
  funext x
  obtain ⟨attSteps, p⟩ := x
  dsimp only
  rcases h.allocateTransfers p with ⟨_ | transfers, p⟩ <;> rfl

/-- **Tracing does not change the program.** -/
theorem openInitTraced_result (serialNumber : UInt64) (fd : ℤ) (p : Process) :
    (h.openInitTraced serialNumber fd p).result = h.openInit serialNumber fd p := by
  rw [openInitTraced, openInit]
  split
  · dsimp only
    split
    · rw [Traced.result_bind, Traced.result_lift]
      congr 1
      funext x
      obtain ⟨result, handle, p⟩ := x
      cases handle with
      | none => rfl
      | some i => exact h.initDeviceTraced_result i p
    · rfl
  · rfl

end Host

/-! ### The requests that fit -/

theorem toNat_tableLength {count : UInt32} (hc : 1 ≤ count.toNat) :
    (tableLength count).toNat = 4 * count.toNat % 2 ^ 16 := by
  have hpos : 0 < count := UInt32.lt_iff_toNat_lt.2 hc
  rw [tableLength, if_pos hpos]
  simp
  omega

theorem toNat_attStepLength {count : UInt32} (hc : 1 ≤ count.toNat) :
    (attStepRequest count).length.toNat = 4 * count.toNat % 2 ^ 16 := by
  have hpos : 0 < count := UInt32.lt_iff_toNat_lt.2 hc
  simp only [attStepRequest, tableRequest, if_pos hpos, UInt16.toNat_ofNat']
  rw [mul_comm]

/-- The requests for the sample rates fit: their number is refused, or it is not zero, and either
the rates are refused or four bytes for every architecture are no more than one. -/
def RatesRoom (r : ℕ → Reply) : Prop :=
  (r 0).Passes 4 → 1 ≤ (r 0).announced.toNat ∧
    ((r 1).Passes (tableLength (r 0).announced).toNat →
      4 * (r 0).announced.toNat % 2 ^ 16 ≤ (r 0).announced.toNat)

/-- The requests for the attenuator steps fit: their number is refused, or it is not zero. -/
def AttStepsRoom (r : ℕ → Reply) : Prop := (r 0).Passes 4 → 1 ≤ (r 0).announced.toNat

/-- All requests fit. -/
def TablesRoom (r : ℕ → Reply) : Prop := RatesRoom r ∧ AttStepsRoom (afterRates r)

instance (r : ℕ → Reply) : Decidable (RatesRoom r) := inferInstanceAs (Decidable (_ → _))

instance (r : ℕ → Reply) : Decidable (AttStepsRoom r) := inferInstanceAs (Decidable (_ → _))

instance (r : ℕ → Reply) : Decidable (TablesRoom r) := inferInstanceAs (Decidable (_ ∧ _))

theorem RatesRoom.fit {r : ℕ → Reply} (hr : RatesRoom r) : RatesFit r := by
  intro h₁
  obtain ⟨hpos, hroom⟩ := hr h₁
  have hlength := toNat_tableLength hpos
  have hmoved := (r 1).moved_le (tableLength (r 0).announced).toNat
  have hmoved' := (r 2).moved_le (tableLength (r 0).announced).toNat
  refine ⟨by omega, ?_⟩
  intro h₂
  have hroom := hroom h₂
  omega

theorem AttStepsRoom.fit {r : ℕ → Reply} (hr : AttStepsRoom r) : AttStepsFit r := by
  intro h₁
  have hlength := toNat_attStepLength (hr h₁)
  have hmoved := (r 1).moved_le (attStepRequest (r 0).announced).length.toNat
  omega

theorem TablesRoom.fit {r : ℕ → Reply} (hr : TablesRoom r) : TablesFit r := ⟨hr.1.fit, hr.2.fit⟩

namespace Host

variable {h : Host} {p : Process}

theorem tableLength_le_iff (count : UInt32) :
    (tableLength count).toNat ≤ count.toNat * 4 ↔ 1 ≤ count.toNat := by
  by_cases hc : 1 ≤ count.toNat
  · have hlength := toNat_tableLength hc
    omega
  · have hzero : count = 0 := UInt32.toNat_inj.1 (by simpa using hc)
    simp [hzero, tableLength]

theorem attStepLength_le_iff (count : UInt32) :
    (attStepRequest count).length.toNat ≤ count.toNat * 4 ↔ 1 ≤ count.toNat := by
  by_cases hc : 1 ≤ count.toNat
  · have hlength := toNat_attStepLength hc
    omega
  · have hzero : count = 0 := UInt32.toNat_inj.1 (by simpa using hc)
    simp [hzero, attStepRequest, tableRequest]

/-- A request for the entries of a table fits if it asks for no more than was allocated, and then no
reply is too long. -/
theorem all_bind_readTableTraced_malloc {α : Type} {q : Request} {r : Resource} (hr : h.grants r)
    (n : ℕ) {f : Bool × Memory × Process → Traced Transfer α} :
    ((h.readTableTraced q (p.malloc h r n).1 (p.malloc h r n).2).bind f).All Transfer.Fits ↔
      q.length.toNat ≤ n ∧ (f (decide ((h.replyAt p 0).Passes q.length.toNat),
        (p.malloc h r n).1.overwrite ((h.replyAt p 0).moved q.length.toNat) .received
          (h.replyAt p 0).data,
        (p.malloc h r n).2.issue h.bus q)).All Transfer.Fits := by
  have hfits : Transfer.Fits ⟨q, (p.malloc h r n).1.size⟩ ↔ q.length.toNat ≤ n := by
    rw [Transfer.Fits, Process.malloc_size, if_pos hr]
  by_cases hn : q.length.toNat ≤ n
  · have hmoved : (h.replyAt p 0).moved q.length.toNat ≤ if h.grants r then n else 0 := by
      rw [if_pos hr]
      exact (Reply.moved_le _ _).trans hn
    have hread := readTable_malloc_eq_some_iff.2 ⟨hmoved, rfl, rfl, rfl⟩
    rw [Traced.all_bind_of_result hread, readTableTraced, Traced.all_emit, hfits]
  · rw [Traced.all_bind, readTableTraced, Traced.all_emit, hfits]
    exact iff_of_false (fun hall => hn hall.1) fun hall => hn hall.1

theorem all_bind_readTableTraced_cleared {α : Type} {q : Request} (hq : q.length = 4)
    {f : Bool × Memory × Process → Traced Transfer α} :
    ((h.readTableTraced q .cleared p).bind f).All Transfer.Fits ↔
      (f (decide ((h.replyAt p 0).Passes 4),
        Memory.cleared.overwrite ((h.replyAt p 0).moved 4) .received (h.replyAt p 0).data,
        p.issue h.bus q)).All Transfer.Fits := by
  have hfits : Transfer.Fits ⟨q, 4⟩ := by
    rw [Transfer.Fits, hq]
    exact le_rfl
  rw [Traced.all_bind_of_result (readTable_cleared hq p), readTableTraced, Traced.all_emit]
  exact and_iff_right hfits

/-- **The requests for the sample rates.** -/
theorem all_loadRatesTraced (ha : h.Allocates) :
    (h.loadRatesTraced p).All Transfer.Fits ↔ RatesRoom (h.replyAt p) := by
  have hrates : h.grants .samplerates := ha _ rfl
  have harchitectures : h.grants .architectures := ha _ rfl
  rw [loadRatesTraced, all_bind_readTableTraced_cleared rfl]
  dsimp only
  rw [← Reply.announced]
  by_cases h₁ : (h.replyAt p 0).Passes 4
  case neg =>
    rw [if_neg fun ho => h₁ (of_decide_eq_true ho)]
    exact iff_of_true (Traced.all_lift _) fun h₁' => absurd h₁' h₁
  rw [if_pos (decide_eq_true h₁), all_bind_readTableTraced_malloc hrates, RatesRoom,
    forall_prop_of_true h₁]
  have hlength (count : UInt32) : (samplerateRequest count).length.toNat ≤ count.toNat * 4 ↔
      1 ≤ count.toNat := tableLength_le_iff count
  rw [hlength]
  refine and_congr_right ?_
  intro hcount
  dsimp only
  rw [← toNat_tableLength hcount]
  split
  case isTrue h₂ =>
    have h₂' : (h.replyAt p 1).Passes (tableLength (h.replyAt p 0).announced).toNat :=
      of_decide_eq_true h₂
    rw [all_bind_readTableTraced_malloc harchitectures, forall_prop_of_true h₂']
    refine and_iff_left ?_
    dsimp only
    split <;> exact Traced.all_lift _
  case isFalse h₂ =>
    exact iff_of_true (Traced.all_lift _) fun h₂' => absurd (decide_eq_true h₂') h₂

/-- **The requests for the attenuator steps.** -/
theorem all_loadAttStepsTraced (ha : h.Allocates) :
    (h.loadAttStepsTraced p).All Transfer.Fits ↔ AttStepsRoom (h.replyAt p) := by
  have hsteps : h.grants .attSteps := ha _ rfl
  rw [loadAttStepsTraced, all_bind_readTableTraced_cleared rfl]
  dsimp only
  rw [← Reply.announced]
  by_cases h₁ : (h.replyAt p 0).Passes 4
  case neg =>
    rw [if_neg fun ho => h₁ (of_decide_eq_true ho)]
    exact iff_of_true (Traced.all_lift _) fun h₁' => absurd h₁' h₁
  rw [if_pos (decide_eq_true h₁), all_bind_readTableTraced_malloc hsteps, attStepLength_le_iff,
    AttStepsRoom, forall_prop_of_true h₁]
  refine and_iff_left ?_
  dsimp only
  split <;> exact Traced.all_lift _

/-- **The requests once a device is open.** -/
theorem all_initDeviceTraced (ha : h.Allocates) {i : ℕ} :
    (h.initDeviceTraced i p).All Transfer.Fits ↔ TablesRoom (h.replyAt p) := by
  rw [initDeviceTraced, Traced.all_bind, all_loadRatesTraced ha, TablesRoom]
  refine and_congr_right ?_
  intro hroom
  -- no reply is too long, so the rates are loaded, and the steps are asked for
  obtain ⟨rates, p₁, hrates⟩ := (exists_ratesRun_iff ha).2 hroom.fit
  obtain ⟨hone, hsize, hsize'⟩ := hrates.size
  have hword : rates.rates.word? 0 = some (rates.rates.word 0) := if_pos (by omega)
  have hbyte : rates.architectures.byte? 0 = some (rates.architectures.byte 0) := if_pos (by omega)
  rw [loadRatesTraced_result, hrates.load, ← hrates.replyAt_eq, ← all_loadAttStepsTraced ha]
  have hpage : Transfer.Fits ⟨configReadRequest, configSize⟩ := by
    rw [Transfer.Fits]
    decide
  constructor
  · intro hall
    have hrest := hall _ rfl
    dsimp only at hrest
    rw [Traced.all_bind_of_result hword, Traced.all_bind_of_result hbyte, Traced.all_bind] at hrest
    exact hrest.2.2.1
  · rintro hatt _ ⟨⟩
    dsimp only
    rw [Traced.all_bind_of_result hword, Traced.all_bind_of_result hbyte, Traced.all_bind]
    refine ⟨Traced.all_lift _, Traced.all_lift _, hatt, ?_⟩
    rintro ⟨attSteps, p₂⟩ -
    dsimp only
    split
    · exact Traced.all_lift _
    · exact (Traced.all_emit _ _).2 hpage

variable {serialNumber : UInt64} {fd : ℤ}

theorem all_openInitTraced_of_finds {i : ℕ} (hf : h.Finds serialNumber fd i) :
    (h.openInitTraced serialNumber fd p).All Transfer.Fits ↔
      (h.initDeviceTraced i (((p.acquire .device).acquire .context).acquire (.handle i))).All
        Transfer.Fits := by
  obtain ⟨hd, hc, hfd, ht⟩ := hf
  have hopen : h.openDevice serialNumber ((p.acquire .device).acquire .context) =
      some (.success, some i, ((p.acquire .device).acquire .context).acquire (.handle i)) := by
    rw [openDevice_eq, ht]
    rfl
  rw [openInitTraced, if_pos hd]
  dsimp only
  rw [if_pos hc, if_pos hfd, Traced.all_bind_of_result hopen]
  exact and_iff_right (Traced.all_lift _)

/-- Where no device is found, none is asked. -/
theorem all_openInitTraced_of_unfound (hf : ∀ i, ¬ h.Finds serialNumber fd i) :
    (h.openInitTraced serialNumber fd p).All Transfer.Fits := by
  unfold openInitTraced
  split
  case isFalse => exact Traced.all_lift _
  case isTrue hd =>
    dsimp only
    split
    case isFalse => exact Traced.all_lift _
    case isTrue hc =>
      rw [Traced.all_bind]
      refine ⟨Traced.all_lift _, ?_⟩
      rintro ⟨result, handle, p'⟩ hopen
      cases handle with
      | none => exact Traced.all_lift _
      | some i =>
        rw [Traced.result_lift, Option.mem_def] at hopen
        split at hopen
        · rename_i hfd
          rw [openDevice_eq, Option.some_inj, Prod.mk.injEq, Prod.mk.injEq] at hopen
          exact absurd ⟨hd, hc, hfd, hopen.2.1⟩ (hf i)
        · cases hopen

/-- **When no request asks for more than there is room for**: no device is found, or the firmware
answers so that the requests for its tables fit. -/
theorem requestsFit_iff (ha : h.Allocates) :
    (h.openInitTraced serialNumber fd p).All Transfer.Fits ↔
      (h.Reaches serialNumber fd → TablesRoom (h.replyAt p)) := by
  by_cases hf : ∃ i, h.Finds serialNumber fd i
  · have hreach := exists_finds_iff.1 hf
    obtain ⟨i, hf⟩ := hf
    rw [all_openInitTraced_of_finds hf, all_initDeviceTraced ha]
    exact ⟨fun hroom _ => hroom, fun hroom => hroom hreach⟩
  · have hreach := mt exists_finds_iff.2 hf
    exact iff_of_true (all_openInitTraced_of_unfound (not_exists.1 hf)) fun h => absurd h hreach

/-- Where the requests fit, no reply can make `airspyhf_open_init` write past the end of a block. -/
theorem exists_openInit_of_requestsFit (ha : h.Allocates)
    (hall : (h.openInitTraced serialNumber fd p).All Transfer.Fits) :
    ∃ r, h.openInit serialNumber fd p = some r := by
  by_cases hf : ∃ i, h.Finds serialNumber fd i
  · obtain ⟨i, hf⟩ := hf
    rw [all_openInitTraced_of_finds hf, all_initDeviceTraced ha] at hall
    have hfit : TablesFit (h.replyAt p) := hall.fit
    obtain ⟨o, p', p₁, p₂, heq, -⟩ := opening_of_fit ha hf hfit
    exact ⟨_, heq⟩
  · obtain ⟨status, -, heq⟩ := openInit_of_unfound (p := p) (not_exists.1 hf)
    exact ⟨_, heq⟩

/-- A receiver that refuses the number of its rates, and announces nine attenuator steps. -/
def nineSteps : Host :=
  answering [.empty, ⟨none, 4, fun i => if i = 0 then 9 else 0⟩, ⟨none, 36, fun _ => 0⟩]

/-- Its steps fit. -/
theorem requestsFit_nineSteps :
    (nineSteps.openInitTraced 0 (-1) ⟨0, []⟩).All Transfer.Fits :=
  (requestsFit_iff fun _ _ => rfl).2 fun _ => by decide

/-- A receiver that announces two rates, and sends them. -/
def twoRates : Host :=
  answering [⟨none, 4, fun i => if i = 0 then 2 else 0⟩, ⟨none, 8, fun _ => 0⟩]

/-- Eight bytes are asked for two architectures, which have one each. -/
theorem not_requestsFit : ¬ (twoRates.openInitTraced 0 (-1) ⟨0, []⟩).All Transfer.Fits := by
  have hf : twoRates.Finds 0 (-1) 0 := ⟨rfl, rfl, rfl, by decide⟩
  rw [all_openInitTraced_of_finds hf, all_initDeviceTraced fun _ _ => rfl]
  decide

end Host

end AirspyHF
