import AirspyHF.Device.Opening

/-!
# The lifetime of a client

A client lists, opens, uses and closes devices in any order, any number of them at a time, and
every call meets another host: devices come and go, and any allocation may fail.  In every state of
a run the driver holds what the open devices hold, and what earlier calls left behind
(`Client.accounts`).  Nothing is left behind exactly if no call is one of the two that leave
something: an `airspyhf_open_init` that is refused a buffer or a transfer, and an
`airspyhf_list_devices` that gets a context but no device list.

So every open device can be closed, in any order, and a client that met neither of the two and has
closed its devices holds nothing.
-/

open scoped List

namespace AirspyHF

/-- A client: what the driver holds for it, and its open devices, in the order of their opening. -/
structure Client where
  process : Process
  opened : List Opened

/-- A call of a client. -/
inductive ClientCall where
  /-- `airspyhf_open_sn`, `airspyhf_open_fd` or `airspyhf_open`. -/
  | open' (host : Host) (serialNumber : UInt64) (fd : ℤ)
  /-- `airspyhf_list_devices`. -/
  | list (host : Host) (count : Option ℕ)
  /-- Any other call on the `i`-th open device: what it makes of the device and of the order of its
  buffers, and the requests it issues. -/
  | use (i : ℕ) (device : Device) (transfers : TransferMemory) (requests : List Exchange)
  /-- `airspyhf_close` of the `i`-th open device. -/
  | close (i : ℕ) (bus : ℕ → Reply) (others : Stream → Stream)

/-- The call leaves nothing behind. -/
def ClientCall.Clean : ClientCall → Prop
  | .open' h serialNumber fd => h.Reaches serialNumber fd → ∀ r ∈ checkedBlocks, h.grants r
  | .list h _ => h.grants .context → h.grants .deviceList
  | .use .. | .close .. => True

namespace Client

variable (c : Client)

/-- One call of a client. -/
def step : ClientCall → Option Client
  | .open' h serialNumber fd => (h.openInit serialNumber fd c.process).map fun r =>
    ⟨r.2.2, c.opened ++ r.2.1.toList⟩
  | .list h count => (h.listDevices count c.process).map fun r => ⟨r.2.2, c.opened⟩
  | .use i device transfers requests => c.opened[i]?.bind fun o =>
    if transfers.resources ~ o.transfers.resources then
      some ⟨⟨c.process.held, requests ++ c.process.log⟩,
        c.opened.set i { o with device := device, transfers := transfers }⟩
    else none
  | .close i bus others => c.opened[i]?.bind fun o => (o.close bus others c.process).map fun r =>
    ⟨r.2, c.opened.eraseIdx i⟩

/-- The machine of a client. -/
def machine : Machine Client ClientCall := ⟨step⟩

/-- A client that has made no call. -/
def initial : Client := ⟨⟨0, []⟩, []⟩

/-- What the open devices hold. -/
def resources : Multiset Resource := (c.opened.map fun o => (o.resources : Multiset Resource)).sum

/-- The driver holds what the open devices hold, and what was left behind. -/
def Leaves (left : Multiset Resource) : Prop := c.process.held = c.resources + left

variable {c} {c' : Client} {left : Multiset Resource}

theorem leaves_initial : Leaves .initial 0 := rfl

/-- An `airspyhf_open_init`, with or without a device. -/
theorem Leaves.open' (hc : c.Leaves left) {h : Host} {serialNumber : UInt64} {fd : ℤ}
    {status : Status} {o : Option Opened} {p : Process}
    (hr : h.openInit serialNumber fd c.process = some (status, o, p)) :
    ∃ more, Leaves ⟨p, c.opened ++ o.toList⟩ (more + left) ∧
      (more = 0 ↔ (ClientCall.open' h serialNumber fd).Clean) := by
  rw [ClientCall.Clean, ← Host.exists_finds_iff]
  cases Host.openInit_run hr with
  | unfound hf =>
    refine ⟨0, ?_, iff_of_true rfl fun ⟨i, hi⟩ => absurd hi (hf i)⟩
    simpa [Leaves, resources] using hc
  | @refused i log r rs hf hg =>
    refine ⟨r ::ₘ ↑rs, ?_, iff_of_false Multiset.cons_ne_zero fun hall => hg (hall ⟨i, hf⟩)⟩
    simp only [Leaves, resources, Option.toList_none, List.append_nil]
    rw [hc, add_left_comm]
    rfl
  | @opened i p₁ p₂ o p hf hg ho =>
    refine ⟨0, ?_, iff_of_true rfl fun _ => hg⟩
    simp only [Leaves, resources, Option.toList_some, List.map_append, List.sum_append]
    rw [ho.held, hc, resources]
    simp only [List.map_cons, List.map_nil, List.sum_singleton]
    abel

/-- An `airspyhf_list_devices`. -/
theorem Leaves.list (hc : c.Leaves left) {h : Host} {count : Option ℕ} {p : Process}
    {status : Status} {serials : List UInt64}
    (hr : h.listDevices count c.process = some (status, serials, p)) :
    ∃ more, Leaves ⟨p, c.opened⟩ (more + left) ∧ (more = 0 ↔ (ClientCall.list h count).Clean) := by
  rw [Host.listDevices_eq] at hr
  by_cases hcontext : h.grants .context
  case neg =>
    rw [if_neg hcontext] at hr
    obtain ⟨-, -, rfl⟩ := by simpa using hr
    refine ⟨0, ?_, iff_of_true rfl fun hc' => absurd hc' hcontext⟩
    rwa [Multiset.zero_add]
  by_cases hlist : h.grants .deviceList
  · rw [if_pos hcontext, if_pos hlist] at hr
    obtain ⟨-, -, rfl⟩ := by simpa using hr
    refine ⟨0, ?_, iff_of_true rfl fun _ => hlist⟩
    rwa [Multiset.zero_add]
  · rw [if_pos hcontext, if_neg hlist] at hr
    obtain ⟨-, -, rfl⟩ := by simpa using hr
    refine ⟨{.context}, ?_, iff_of_false (Multiset.singleton_ne_zero _)
      fun hall => hlist (hall hcontext)⟩
    rw [Leaves, Process.acquire_held, hc, ← Multiset.singleton_add, add_left_comm]
    rfl

theorem resources_eq {i : ℕ} {o : Opened} (ho : c.opened[i]? = some o) :
    c.resources = ↑o.resources + resources ⟨c.process, c.opened.eraseIdx i⟩ := by
  obtain ⟨hi, rfl⟩ := List.getElem?_eq_some_iff.1 ho
  have hperm := (List.getElem_cons_eraseIdx_perm hi).map fun o : Opened =>
    (o.resources : Multiset Resource)
  rw [resources, resources, ← hperm.sum_eq, List.map_cons, List.sum_cons]

theorem Leaves.close_eq (hc : c.Leaves left) {i : ℕ} {o : Opened} (ho : c.opened[i]? = some o)
    (bus : ℕ → Reply) (others : Stream → Stream) : ∃ status log,
      o.close bus others c.process =
        some (status, ⟨resources ⟨c.process, c.opened.eraseIdx i⟩ + left, log⟩) := by
  rw [Leaves, resources_eq ho, Multiset.add_assoc] at hc
  exact ⟨_, _, Opened.close_eq hc⟩

theorem resources_use {i : ℕ} {o : Opened} (ho : c.opened[i]? = some o) {device : Device}
    {transfers : TransferMemory} (hperm : transfers.resources ~ o.transfers.resources)
    (p : Process) :
    resources ⟨p, c.opened.set i { o with device := device, transfers := transfers }⟩ =
      c.resources := by
  obtain ⟨hi, rfl⟩ := List.getElem?_eq_some_iff.1 ho
  have hmap : i < (c.opened.map fun o : Opened => (o.resources : Multiset Resource)).length := by
    rwa [List.length_map]
  have hsame : (({ c.opened[i] with device := device, transfers := transfers } : Opened).resources :
      Multiset Resource) = (c.opened.map fun o => (o.resources : Multiset Resource))[i] := by
    rw [List.getElem_map, Multiset.coe_eq_coe]
    simp only [Opened.resources, List.append_assoc]
    exact hperm.append_right _
  rw [resources, List.map_set, hsame, List.set_getElem_self]
  rfl

theorem step_close {i : ℕ} {o : Opened} {bus : ℕ → Reply} {others : Stream → Stream}
    {status : Status} {p : Process} (ho : c.opened[i]? = some o)
    (hclose : o.close bus others c.process = some (status, p)) :
    machine.step c (.close i bus others) = some ⟨p, c.opened.eraseIdx i⟩ := by
  change c.opened[i]?.bind _ = _
  rw [ho, Option.bind_some, hclose]
  rfl

/-- **One call** accounts for what it leaves behind. -/
theorem Leaves.step {call : ClientCall} (hc : c.Leaves left) (hs : machine.step c call = some c') :
    ∃ more, c'.Leaves (more + left) ∧ (more = 0 ↔ call.Clean) := by
  cases call with
  | open' h serialNumber fd =>
    obtain ⟨⟨status, o, p⟩, hr, rfl⟩ := Option.map_eq_some_iff.1 hs
    exact hc.open' hr
  | list h count =>
    obtain ⟨⟨status, serials, p⟩, hr, rfl⟩ := Option.map_eq_some_iff.1 hs
    exact hc.list hr
  | use i device transfers requests =>
    obtain ⟨o, ho, hs⟩ := Option.bind_eq_some_iff.1 hs
    obtain ⟨hperm, he⟩ := Option.ite_none_right_eq_some.1 hs
    obtain rfl := Option.some.inj he
    refine ⟨0, ?_, iff_of_true rfl trivial⟩
    rwa [Leaves, resources_use ho hperm, Multiset.zero_add]
  | close i bus others =>
    obtain ⟨o, ho, hs⟩ := Option.bind_eq_some_iff.1 hs
    obtain ⟨status, log, hclose⟩ := hc.close_eq ho bus others
    rw [hclose] at hs
    obtain rfl := Option.some.inj hs
    refine ⟨0, ?_, iff_of_true rfl trivial⟩
    rw [Leaves, Multiset.zero_add]
    rfl

/-- **The account of a client**: in every run the driver holds what the open devices hold and what
was left behind; nothing was exactly if no call was refused in one of the two ways; and every open
device can be closed next. -/
theorem accounts {calls : List ClientCall} (hrun : machine.run initial calls = some c) :
    ∃ left, c.process.held = c.resources + left ∧
      (left = 0 ↔ machine.Meets (fun _ call => call.Clean) initial calls) ∧
      ∀ i < c.opened.length, ∀ bus others,
        ∃ c', machine.step c (.close i bus others) = some c' := by
  obtain ⟨left, hleft, hclean⟩ := Machine.run_account (fun _ _ _ _ => Leaves.step)
    leaves_initial hrun
  rw [Multiset.add_zero] at hleft
  refine ⟨left, hleft, hclean, fun i hi bus others => ?_⟩
  have ho := List.getElem?_eq_getElem hi
  obtain ⟨status, log, hclose⟩ := hleft.close_eq ho bus others
  exact ⟨_, step_close ho hclose⟩

/-- A client opens a device, is refused a device list, and closes the device. -/
def refusedList : List ClientCall :=
  [.open' (.obliging [.receiver []] (fun _ => true) fun _ => .empty) 0 (-1),
    .list (.obliging [] (fun r => r != .deviceList) fun _ => .empty) none,
    .close 0 (fun _ => .empty) id]

/-- The context of the refused list stays behind, and nothing else. -/
theorem refusedList_accounts : ∃ c left, machine.run initial refusedList = some c ∧
    c.process.held = c.resources + left ∧ left ≠ 0 ∧ c.opened = [] := by
  have hrun : (machine.run initial refusedList).map (fun c => c.opened.length) = some 0 := by
    decide +kernel
  obtain ⟨c, hc, hlength⟩ := Option.map_eq_some_iff.1 hrun
  obtain ⟨left, hleft, hclean, -⟩ := accounts hc
  refine ⟨c, left, hc, hleft, fun hzero => ?_, List.length_eq_zero_iff.1 hlength⟩
  obtain ⟨c₁, h₁, -⟩ := Machine.run_cons.1 hc
  exact absurd (((hclean.1 hzero).2 c₁ h₁).1 rfl) (by decide)

end Client

end AirspyHF
