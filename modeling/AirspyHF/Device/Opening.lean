import Mathlib.Algebra.Order.Group.Multiset
import Mathlib.Data.List.TakeWhile
import Mathlib.Tactic.Abel
import AirspyHF.Device.Calls
import AirspyHF.Device.Open

/-!
# What opening a device does

`Host.Opening` lists what a successful `airspyhf_open_init` has done: the tables it loaded, the
settings it applied, what it holds and what it asked the device.  Every other return is one without
a device: no handle is open (`Host.openInit_of_unfound`), or a buffer or a transfer was refused
(`Host.initDevice_of_refused`).
-/

open scoped List

namespace AirspyHF

/-! ### What the allocations leave -/

namespace Host

variable {h : Host} {p p' : Process}

theorem acquireEach_eq (rs : List Resource) : h.acquireEach rs p =
    (rs.all h.grants, ⟨↑(rs.takeWhile h.grants) + p.held, p.log⟩) := by
  induction rs generalizing p with
  | nil =>
    rw [List.takeWhile_nil, Multiset.coe_nil, Multiset.zero_add]
    rfl
  | cons r rs ih =>
    rw [acquireEach, List.all_cons, List.takeWhile_cons]
    by_cases hr : h.grants r
    · rw [if_pos hr, ih, hr, if_pos rfl, Bool.true_and, ← Multiset.cons_coe, Multiset.cons_add,
        Process.acquire_held, Multiset.add_cons]
      rfl
    · rw [if_neg hr, Bool.eq_false_iff.2 hr, Bool.false_and, if_neg Bool.false_ne_true,
        Multiset.coe_nil, Multiset.zero_add]

theorem foldl_acquire (rs : List Resource) :
    rs.foldl Process.acquire p = ⟨↑rs + p.held, p.log⟩ := by
  induction rs generalizing p with
  | nil =>
    rw [Multiset.coe_nil, Multiset.zero_add]
    rfl
  | cons r rs ih =>
    rw [List.foldl_cons, ih, ← Multiset.cons_coe, Multiset.cons_add, Process.acquire_held,
      Multiset.add_cons]
    rfl

theorem createBalancer_eq_some_iff {blocks : List Resource} :
    h.createBalancer p = some (blocks, p') ↔
      h.grants .balancer ∧ blocks = (balancerBlocks.filter fun r => h.grants r) ++ [.balancer] ∧
        p' = ⟨↑blocks + p.held, p.log⟩ := by
  rw [createBalancer, Option.ite_none_right_eq_some]
  refine and_congr_right fun _ => ?_
  dsimp only
  rw [foldl_acquire, Option.some_inj, Prod.mk.injEq, eq_comm]
  refine and_congr_right ?_
  rintro rfl
  rw [eq_comm, Process.acquire_held, Process.acquire_log, Multiset.add_cons,
    ← Multiset.coe_add, Multiset.add_assoc, Multiset.coe_singleton, Multiset.singleton_add,
    Multiset.add_cons]

theorem transfers_perm : (((List.range transferCount).map fun i =>
      (Resource.transfer i, Resource.transferBuffer i)).flatMap fun t => [t.2, t.1]) ++
        .transfers :: queueBuffers ~ checkedBlocks := by
  rw [List.flatMap_map]
  have hswap : ((List.range transferCount).flatMap fun i =>
      [Resource.transferBuffer i, .transfer i]) ~ transferBlocks :=
    List.Perm.flatMap_left _ fun i _ => .swap ..
  calc _ ~ transferBlocks ++ .transfers :: queueBuffers := hswap.append_right _
    _ ~ .transfers :: (queueBuffers ++ transferBlocks) := List.perm_append_comm
    _ ~ checkedBlocks := List.perm_middle.symm

theorem isBlock_of_checked {r : Resource} (hr : r ∈ checkedBlocks) : r.isBlock := by
  have hall : ∀ r ∈ checkedBlocks, r.isBlock := by decide
  exact hall r hr

theorem filter_blocks {rs : List Resource} (hrs : ∀ r ∈ rs, r.isBlock) :
    (rs.filter fun r => !r.isBlock) = [] := by
  rw [List.filter_eq_nil_iff]
  intro r hr
  rw [hrs r hr]
  exact Bool.false_ne_true

/-- What `allocate_transfers` does when everything is granted that it looks at: it acquires what
`free_transfers` gives back. -/
theorem allocateTransfers_of_granted (hg : ∀ r ∈ checkedBlocks, h.grants r) :
    ∃ m, h.allocateTransfers p = (some m, ⟨↑m.resources + p.held, p.log⟩) ∧
      ∀ r ∈ m.resources, r.isBlock := by
  have hperm : (p.malloc h .outputBuffer (4096 * 8)).1.owner.toList ++ checkedBlocks ~
      (TransferMemory.mk (p.malloc h .outputBuffer (4096 * 8)).1.owner queueBuffers
        ((List.range transferCount).map fun i => (.transfer i, .transferBuffer i))).resources := by
    rw [TransferMemory.resources, List.append_assoc]
    exact transfers_perm.symm.append_left _
  rw [allocateTransfers]
  dsimp only
  rw [acquireEach_eq, List.all_eq_true.2 hg, List.takeWhile_eq_self_iff.2 hg]
  refine ⟨_, congrArg₂ Prod.mk rfl (congrArg₂ Process.mk ?_ Process.malloc_log), ?_⟩
  · rw [Process.malloc_held, ← Multiset.add_assoc, Multiset.coe_add,
      Multiset.coe_eq_coe.2 (List.perm_append_comm.trans hperm)]
  · intro r hr
    rcases List.mem_append.1 (hperm.mem_iff.2 hr) with hr | hr
    · rw [Process.eq_of_mem_malloc hr]
      rfl
    · exact isBlock_of_checked hr

theorem allocateTransfers_of_refused (hg : ¬ ∀ r ∈ checkedBlocks, h.grants r) :
    ∃ rs : List Resource, h.allocateTransfers p = (none, ⟨↑rs + p.held, p.log⟩) := by
  rw [allocateTransfers]
  dsimp only
  have hall : checkedBlocks.all h.grants = false := Bool.eq_false_iff.2 fun ht =>
    hg fun r hr => List.all_eq_true.1 ht r hr
  rw [acquireEach_eq, hall]
  dsimp only
  refine ⟨checkedBlocks.takeWhile h.grants ++ (p.malloc h .outputBuffer (4096 * 8)).1.owner.toList,
    ?_⟩
  rw [Process.malloc_held, Process.malloc_log, ← Multiset.add_assoc, Multiset.coe_add]

/-! ### What `airspyhf_open_init` does -/

variable (h)

/-- A device is found and opened. -/
def Finds (serialNumber : UInt64) (fd : ℤ) (i : ℕ) : Prop :=
  h.grants .device ∧ h.grants .context ∧ fd = fileDescriptorUnused ∧
    h.target serialNumber = some i

/-- There is a device that can be opened. -/
def Reaches (serialNumber : UInt64) (fd : ℤ) : Prop :=
  h.grants .device ∧ h.grants .context ∧ fd = fileDescriptorUnused ∧ h.grants .deviceList ∧
    ∃ i d, h.devices[i]? = some d ∧ h.Opens serialNumber i d

/-- The world in which the stored settings are loaded: `p` has loaded the table. -/
def booted (t : RateMemory) (p : Process) : World :=
  ⟨t.device (t.rates.word 0) (t.architectures.byte 0), p.log, h.bus⟩

/-- **What a successful `airspyhf_open_init` has done**: `p₁` has loaded the sample rates, and `p₂`
the attenuator steps. -/
structure Opening (i : ℕ) (p p₁ p₂ : Process) (o : Opened) (p' : Process) : Prop where
  handle : o.handle = i
  rates : h.RatesRun (((p.acquire .device).acquire .context).acquire (.handle i)) o.rates p₁
  attSteps : h.AttStepsRun p₁ o.attSteps p₂
  device : o.device = (loadConfig h.stack (h.booted o.rates p₂)).device
  held : p'.held = ↑o.resources + p.held
  usb : (o.resources.filter fun r => !r.isBlock) = [.handle i, .context]
  log : p'.log = (loadConfig h.stack (h.booted o.rates p₂)).log

variable {h} {serialNumber : UInt64} {fd : ℤ} {i : ℕ} {rates : RateMemory} {attSteps : AttMemory}
  {p₁ p₂ : Process}

theorem exists_finds_iff : (∃ i, h.Finds serialNumber fd i) ↔ h.Reaches serialNumber fd := by
  simp only [Finds, Reaches, exists_and_left, exists_target_iff]

theorem openInit_of_finds (hf : h.Finds serialNumber fd i) : h.openInit serialNumber fd p =
    h.initDevice i (((p.acquire .device).acquire .context).acquire (.handle i)) := by
  obtain ⟨hd, hc, hfd, ht⟩ := hf
  rw [openInit, if_pos hd]
  dsimp only
  rw [if_pos hc, if_pos hfd, openDevice_eq, ht]
  rfl

/-- Where no device is found, everything is given back. -/
theorem openInit_of_unfound (hf : ∀ i, ¬ h.Finds serialNumber fd i) :
    ∃ status, status ≠ .success ∧ h.openInit serialNumber fd p = some (status, none, p) := by
  unfold openInit
  by_cases hd : h.grants .device
  case neg => exact ⟨.error, by decide, if_neg hd⟩
  rw [if_pos hd]
  dsimp only
  rw [Process.release_acquire, Option.map_some]
  by_cases hc : h.grants .context
  case neg => exact ⟨.error, by decide, if_neg hc⟩
  rw [if_pos hc]
  by_cases hfd : fd = fileDescriptorUnused
  case neg =>
    rw [if_neg hfd, Option.bind_some]
    dsimp only
    rw [Process.release_acquire, Option.bind_some, Process.release_acquire]
    exact ⟨.unsupported, by decide, rfl⟩
  have ht : h.target serialNumber = none :=
    Option.eq_none_iff_forall_ne_some.2 fun i ht => hf i ⟨hd, hc, hfd, ht⟩
  rw [if_pos hfd, openDevice_eq, ht, Option.bind_some]
  dsimp only [Option.elim_none]
  rw [Process.release_acquire, Option.bind_some, Process.release_acquire]
  exact ⟨.error, by decide, rfl⟩

theorem initDevice_eq (hr : h.RatesRun p rates p₁) (ha : h.AttStepsRun p₁ attSteps p₂) :
    h.initDevice i p = match h.allocateTransfers p₂ with
      | (none, p) => (p.openExit i).bind fun p => (p.release .device).map fun p => (.error, none, p)
      | (some transfers, p) =>
        (h.createBalancer ⟨p.held, (loadConfig h.stack (h.booted rates p)).log⟩).map
          fun (balancer, p') => (.success, some ⟨(loadConfig h.stack (h.booted rates p)).device, i,
            rates, attSteps, transfers, balancer⟩, p') := by
  obtain ⟨hone, hsize, hsize'⟩ := hr.size
  have hword : rates.rates.word? 0 = some (rates.rates.word 0) := if_pos (by omega)
  have hbyte : rates.architectures.byte? 0 = some (rates.architectures.byte 0) := if_pos (by omega)
  rw [initDevice, hr.load, Option.bind_some]
  dsimp only
  rw [hword, Option.bind_some, hbyte, Option.bind_some, ha.load, Option.bind_some]
  rfl

theorem runs_of_initDevice {r : Status × Option Opened × Process}
    (hr : h.initDevice i p = some r) : ∃ rates p₁ attSteps p₂,
      h.RatesRun p rates p₁ ∧ h.AttStepsRun p₁ attSteps p₂ := by
  obtain ⟨⟨rates, p₁⟩, hrates, hr⟩ := Option.bind_eq_some_iff.1 hr
  obtain ⟨_, -, hr⟩ := Option.bind_eq_some_iff.1 hr
  obtain ⟨_, -, hr⟩ := Option.bind_eq_some_iff.1 hr
  obtain ⟨⟨attSteps, p₂⟩, hatt, -⟩ := Option.bind_eq_some_iff.1 hr
  exact ⟨rates, p₁, attSteps, p₂, loadRates_run hrates, loadAttSteps_run hatt⟩

theorem exit_eq {held : Multiset Resource}
    (hheld : p.held = .handle i ::ₘ .context ::ₘ .device ::ₘ held) :
    ((p.openExit i).bind fun p => (p.release .device).map fun p =>
      (Status.error, (none : Option Opened), p)) = some (.error, none, ⟨held, p.log⟩) := by
  have hhandle : p.release (.handle i) = some ⟨.context ::ₘ .device ::ₘ held, p.log⟩ :=
    Process.release_eq_some_iff.2 ⟨hheld, rfl⟩
  have hcontext : Process.release ⟨.context ::ₘ .device ::ₘ held, p.log⟩ .context =
      some ⟨.device ::ₘ held, p.log⟩ :=
    Process.release_eq_some_iff.2 ⟨rfl, rfl⟩
  have hdevice : Process.release ⟨.device ::ₘ held, p.log⟩ .device = some ⟨held, p.log⟩ :=
    Process.release_eq_some_iff.2 ⟨rfl, rfl⟩
  rw [Process.openExit, hhandle, Option.bind_some, hcontext, Option.bind_some, hdevice]
  rfl

theorem held_of_runs (hr : h.RatesRun p rates p₁) (ha : h.AttStepsRun p₁ attSteps p₂) :
    p₂.held = ↑(rates.rates.owner.toList ++ rates.architectures.owner.toList ++
      attSteps.steps.owner.toList) + p.held :=
  (hr.loads_both ha).held

theorem initDevice_of_refused
    (hr : h.RatesRun (((p.acquire .device).acquire .context).acquire (.handle i)) rates p₁)
    (ha : h.AttStepsRun p₁ attSteps p₂) (hg : ¬ ∀ r ∈ checkedBlocks, h.grants r) :
    ∃ rs : List Resource,
      h.initDevice i (((p.acquire .device).acquire .context).acquire (.handle i)) =
        some (.error, none, ⟨↑(rates.rates.owner.toList ++ rs) + p.held, p₂.log⟩) := by
  obtain ⟨rs, hrs⟩ := allocateTransfers_of_refused (p := p₂) hg
  refine ⟨rates.architectures.owner.toList ++ attSteps.steps.owner.toList ++ rs, ?_⟩
  rw [initDevice_eq hr ha, hrs]
  dsimp only
  refine exit_eq ?_
  dsimp only
  rw [held_of_runs hr ha]
  simp only [← Multiset.coe_add, ← Multiset.singleton_add, Process.acquire_held]
  abel

/-- Where everything is granted that is looked at, the device is opened. -/
theorem initDevice_of_granted
    (hr : h.RatesRun (((p.acquire .device).acquire .context).acquire (.handle i)) rates p₁)
    (ha : h.AttStepsRun p₁ attSteps p₂) (hg : ∀ r ∈ checkedBlocks, h.grants r)
    (hb : h.grants .balancer) : ∃ o p',
      h.initDevice i (((p.acquire .device).acquire .context).acquire (.handle i)) =
        some (.success, some o, p') ∧
      h.Opening i p p₁ p₂ o p' ∧ o.rates = rates ∧ o.attSteps = attSteps := by
  obtain ⟨m, hm, hblocks⟩ := allocateTransfers_of_granted (p := p₂) hg
  rw [initDevice_eq hr ha, hm]
  dsimp only
  rw [createBalancer_eq_some_iff.2 ⟨hb, rfl, rfl⟩]
  refine ⟨_, _, rfl, ⟨rfl, hr, ha, rfl, ?_, ?_, rfl⟩, rfl, rfl⟩
  · dsimp only
    rw [held_of_runs hr ha, Opened.resources]
    simp only [← Multiset.coe_add, ← Multiset.cons_coe, ← Multiset.singleton_add, Multiset.coe_nil,
      Multiset.add_zero, Process.acquire_held]
    abel
  · have hbalancer : ∀ r ∈ (balancerBlocks.filter fun r => h.grants r) ++ [.balancer],
        r.isBlock := by
      have hall : ∀ r ∈ balancerBlocks ++ [.balancer], r.isBlock := by decide
      intro r hmem
      refine hall r (List.mem_append.2 ((List.mem_append.1 hmem).imp_left ?_))
      exact fun hr => (List.mem_filter.1 hr).1
    obtain ⟨r, r', ho, ho', hblock, hblock'⟩ := hr.owner
    obtain ⟨r'', ho'', hblock''⟩ := ha.owner
    rw [Opened.resources]
    dsimp only
    rw [ho, ho', ho'']
    simp only [Option.toList_some, List.filter_append, filter_blocks hblocks,
      filter_blocks hbalancer, filter_blocks (List.forall_mem_singleton.2 hblock),
      filter_blocks (List.forall_mem_singleton.2 hblock'),
      filter_blocks (List.forall_mem_singleton.2 hblock'')]
    rfl

theorem Opening.reply_eq {o : Opened} (ho : h.Opening i p p₁ p₂ o p') :
    h.bus p₂.log.length = h.replyAt p (tableRequests (h.replyAt p)) := by
  obtain ⟨es, hlog, hlength, -⟩ := (ho.rates.loads_both ho.attSteps).log
  rw [hlog, List.length_append, hlength, add_comm]
  rfl

theorem Opening.log_eq {o : Opened} (ho : h.Opening i p p₁ p₂ o p') : ∃ es es₀,
    p'.log = es ++ ⟨configReadRequest, h.replyAt p (tableRequests (h.replyAt p))⟩ :: (es₀ ++ p.log) ∧
    (∀ e ∈ es, e.request.command = .setVctcxoCalibration ∨
      e.request.command = .setFrontendOptions) ∧
    ∀ e ∈ es₀, e.request.LoadsTable := by
  obtain ⟨es₀, hlog₀, -, hload⟩ := (ho.rates.loads_both ho.attSteps).log
  obtain ⟨es, hlog, hes⟩ := loadConfig_log h.stack (h.booted o.rates p₂)
  refine ⟨es, es₀, ?_, hes, hload⟩
  rw [ho.log, hlog, ← ho.reply_eq]
  exact congrArg (es ++ _ :: ·) hlog₀

theorem Opening.tableRequests_le {o : Opened} (ho : h.Opening i p p₁ p₂ o p') :
    tableRequests (h.replyAt p) ≤ p'.log.length := by
  obtain ⟨es₀, hlog₀, hlength, -⟩ := (ho.rates.loads_both ho.attSteps).log
  obtain ⟨es, hlog, -⟩ := loadConfig_log h.stack (h.booted o.rates p₂)
  have hrequests : es₀.length = tableRequests (h.replyAt p) := hlength
  rw [ho.log, hlog, List.length_append, List.length_cons]
  change _ ≤ es.length + (p₂.log.length + 1)
  rw [hlog₀, List.length_append]
  omega

theorem Opening.stored {o : Opened} (ho : h.Opening i p p₁ p₂ o p') :
    o.device.stored = (h.replyAt p (tableRequests (h.replyAt p))).stored h.stack ∧
    o.device.flashConfig = o.device.stored.config ∧ o.device.stream = .initial := by
  obtain ⟨hstored, hconfig⟩ := loadConfig_device h.stack (h.booted o.rates p₂)
  obtain ⟨ppb, vctcxo, options, hdevice⟩ := loadConfig_frame h.stack (h.booted o.rates p₂)
  refine ⟨?_, ?_, ?_⟩
  · rw [ho.device, hstored, ← ho.reply_eq]
    rfl
  · rw [ho.device, hconfig, hstored]
  · rw [ho.device, hdevice]
    rfl

/-- Opening a device asks for the page once and writes none. -/
theorem Opening.page_requests {o : Opened} (ho : h.Opening i p p₁ p₂ o p') : ∃ es,
    p'.log = es ++ p.log ∧ (∀ e ∈ es, e.request.command ≠ .configWrite) ∧
    ∀ e ∈ es, e.request.command = .configRead →
      e = ⟨configReadRequest, h.replyAt p (tableRequests (h.replyAt p))⟩ := by
  obtain ⟨es, es₀, hlog, hes, hes₀⟩ := ho.log_eq
  rw [← List.cons_append, ← List.append_assoc] at hlog
  have hother : ∀ e ∈ es ++ ⟨configReadRequest, h.replyAt p (tableRequests (h.replyAt p))⟩ :: es₀,
      e = ⟨configReadRequest, h.replyAt p (tableRequests (h.replyAt p))⟩ ∨
        e.request.command ≠ .configWrite ∧ e.request.command ≠ .configRead := by
    intro e he
    rcases List.mem_append.1 he with he | he
    · right
      rcases hes e he with hc | hc <;> rw [hc] <;> decide
    rcases List.mem_cons.1 he with rfl | he
    · exact .inl rfl
    · right
      rcases hes₀ e he with hc | hc | hc <;> rw [hc] <;> decide
  refine ⟨_, hlog, ?_, ?_⟩
  · intro e he
    rcases hother e he with rfl | hne
    · exact (by decide : configReadRequest.command ≠ .configWrite)
    · exact hne.1
  · intro e he hc
    exact (hother e he).resolve_right fun hne => hne.2 hc

theorem Opening.pageAfter_eq {o : Opened} (ho : h.Opening i p p₁ p₂ o p')
    (image : Fin 256 → UInt8) (lands : ℕ → Bool) :
    pageAfter image lands p'.log = pageAfter image lands p.log := by
  obtain ⟨es, hlog, hwrite, -⟩ := ho.page_requests
  rw [hlog, pageAfter_append hwrite]

theorem Opening.keeps {o : Opened} (ho : h.Opening i p p₁ p₂ o p') {image : Fin 256 → UInt8}
    {lands : ℕ → Bool} (hkeeps : KeepsPage image lands p'.log) : KeepsPage image lands p.log := by
  obtain ⟨es, hlog, -⟩ := ho.page_requests
  rw [hlog] at hkeeps
  exact hkeeps.of_append

theorem Opening.data_eq {o : Opened} (ho : h.Opening i p p₁ p₂ o p') {image : Fin 256 → UInt8}
    {lands : ℕ → Bool} (hkeeps : KeepsPage image lands p'.log) (k : Fin 256) :
    (h.replyAt p (tableRequests (h.replyAt p))).data k = pageAfter image lands p.log k := by
  obtain ⟨es, es₀, hlog, -, hes₀⟩ := ho.log_eq
  rw [hlog] at hkeeps
  have hdata := hkeeps.of_append.1 rfl k
  have hwrite : ∀ e ∈ es₀, e.request.command ≠ .configWrite := by
    intro e he
    rcases hes₀ e he with hc | hc | hc <;> rw [hc] <;> decide
  rw [pageAfter_append hwrite] at hdata
  exact hdata

/-- A device that a fresh process opens is one from which the calls can start. -/
theorem Opening.opened {held : Multiset Resource} {o : Opened}
    (ho : h.Opening i ⟨held, []⟩ p₁ p₂ o p') : (World.mk o.device p'.log h.bus).Opened := by
  obtain ⟨es, es₀, hlog, hes, hes₀⟩ := ho.log_eq
  obtain ⟨ppb, vctcxo, options, hdevice⟩ := loadConfig_frame h.stack (h.booted o.rates p₂)
  have hcount := ho.rates.size.1
  have hfirst {α : Type} (f : ℕ → α) : ((List.range o.rates.count.toNat).map f)[0]? = some (f 0) := by
    rw [List.getElem?_map, List.getElem?_range hcount]
    rfl
  rw [ho.device, hdevice]
  refine ⟨rfl, rfl, rfl, rfl, rfl, rfl, rfl, rfl, ⟨hfirst _, hfirst _⟩, ?_⟩
  intro e he
  rw [hlog, List.append_nil] at he
  rcases List.mem_append.1 he with he | he
  · rcases hes e he with hc | hc <;> rw [hc] <;> decide
  rcases List.mem_cons.1 he with rfl | he
  · exact (by decide : configReadRequest.command ≠ .setFreq ∧
      configReadRequest.command ≠ .setSamplerate)
  · rcases hes₀ e he with hc | hc | hc <;> rw [hc] <;> decide

/-- **Everything a return of `airspyhf_open_init` can be.** -/
inductive OpenRun (h : Host) (serialNumber : UInt64) (fd : ℤ) (p : Process) :
    Status → Option Opened → Process → Prop
  /-- No device is opened, and everything is given back. -/
  | unfound {status} (hf : ∀ i, ¬ h.Finds serialNumber fd i) (hs : status ≠ .success) :
      OpenRun h serialNumber fd p status none p
  /-- A buffer or a transfer is refused, and something stays behind. -/
  | refused {i log} {r : Resource} {rs : List Resource} (hf : h.Finds serialNumber fd i)
      (hg : ¬ ∀ r ∈ checkedBlocks, h.grants r)
      (hlog : ∃ es, log = es ++ p.log ∧ ∀ e ∈ es, e.request.LoadsTable) :
      OpenRun h serialNumber fd p .error none ⟨r ::ₘ ↑rs + p.held, log⟩
  /-- The device is open. -/
  | opened {i p₁ p₂ o p'} (hf : h.Finds serialNumber fd i) (hg : ∀ r ∈ checkedBlocks, h.grants r)
      (ho : h.Opening i p p₁ p₂ o p') : OpenRun h serialNumber fd p .success (some o) p'

theorem openInit_run {status : Status} {o : Option Opened}
    (hr : h.openInit serialNumber fd p = some (status, o, p')) :
    h.OpenRun serialNumber fd p status o p' := by
  by_cases hf : ∃ i, h.Finds serialNumber fd i
  case neg =>
    obtain ⟨status', hs, heq⟩ := openInit_of_unfound (p := p) (not_exists.1 hf)
    obtain ⟨rfl, rfl, rfl⟩ := by simpa using heq.symm.trans hr
    exact .unfound (not_exists.1 hf) hs
  obtain ⟨i, hf⟩ := hf
  rw [openInit_of_finds hf] at hr
  obtain ⟨rates, p₁, attSteps, p₂, hrates, hatt⟩ := runs_of_initDevice hr
  by_cases hg : ∀ r ∈ checkedBlocks, h.grants r
  · by_cases hb : h.grants .balancer
    · obtain ⟨o', p'', heq, ho, -⟩ := initDevice_of_granted hrates hatt hg hb
      obtain ⟨rfl, rfl, rfl⟩ := by simpa using heq.symm.trans hr
      exact .opened hf hg ho
    · -- the balancer is cleared through a null pointer
      obtain ⟨m, hm, -⟩ := allocateTransfers_of_granted (p := p₂) hg
      rw [initDevice_eq hrates hatt, hm] at hr
      dsimp only at hr
      rw [createBalancer, if_neg hb] at hr
      exact absurd hr (Option.some_ne_none _).symm
  · obtain ⟨rs, heq⟩ := initDevice_of_refused hrates hatt hg
    obtain ⟨r, -, ho, -⟩ := hrates.owner
    rw [ho] at heq
    obtain ⟨es, hlog, -, hload⟩ := (hrates.loads_both hatt).log
    obtain ⟨rfl, rfl, rfl⟩ := by simpa using heq.symm.trans hr
    exact .refused hf hg ⟨es, hlog, hload⟩

end Host

theorem Opened.close_eq {o : Opened} {bus : ℕ → Reply} {others : Stream → Stream} {p : Process}
    {held : Multiset Resource} (hheld : p.held = ↑o.resources + held) :
    o.close bus others p = some ((stop others ⟨o.device, p.log, bus⟩).1,
      ⟨held, (stop others ⟨o.device, p.log, bus⟩).2.log⟩) := by
  have hrelease : Process.releaseAll ⟨p.held, (stop others ⟨o.device, p.log, bus⟩).2.log⟩
      o.resources = some ⟨held, (stop others ⟨o.device, p.log, bus⟩).2.log⟩ :=
    Process.releaseAll_eq_some_iff.2 ⟨hheld, rfl⟩
  rw [close]
  dsimp only
  rw [hrelease]
  rfl

theorem Opened.close_log {o : Opened} {bus : ℕ → Reply} {others : Stream → Stream} {p p' : Process}
    {result : Status} (hc : o.close bus others p = some (result, p')) :
    ∃ e, p'.log = e :: p.log ∧ e.request = receiverModeRequest .off := by
  have hrelease : Process.releaseAll ⟨p.held, (stop others ⟨o.device, p.log, bus⟩).2.log⟩
      o.resources = some p' := by
    rw [close] at hc
    dsimp only at hc
    obtain ⟨q, hq, heq⟩ := Option.map_eq_some_iff.1 hc
    rw [hq, (Prod.mk.inj heq).2]
  refine ⟨⟨receiverModeRequest .off, bus p.log.length⟩, ?_, rfl⟩
  rw [(Process.releaseAll_eq_some_iff.1 hrelease).2, stop_log]
  rfl

end AirspyHF
