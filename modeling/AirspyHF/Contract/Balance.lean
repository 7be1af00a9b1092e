import AirspyHF.Device.Opening

/-!
# Opening and listing give back what they acquire

An `airspyhf_open_init` that fails should leave the driver with what it held before, and one that
succeeds with what `airspyhf_close` gives back.  It does where no buffer and no transfer is refused:
`allocate_transfers` does not undo what it did, and the tables of the firmware are not given back
either.  `airspyhf_list_devices` keeps its context where it gets no device list.
-/

open scoped List

namespace AirspyHF

/-- From `p` to `p'` the driver came to hold an open device: one handle, one context, and blocks.
Closing it gives back all of this once, whatever the calls in between did to the device, and in
whatever order its buffers are by then. -/
def Opened.Owns (o : Opened) (p p' : Process) : Prop :=
  ∃ rs : List Resource, p'.held = ↑rs + p.held ∧
    (rs.filter fun r => !r.isBlock) = [.handle o.handle, .context] ∧
    ∀ device transfers log bus others, transfers.resources ~ o.transfers.resources →
      ∃ result log', { o with device := device, transfers := transfers }.close bus others
        ⟨p'.held, log⟩ = some (result, ⟨p.held, log'⟩)

/-- What a return of `airspyhf_open_init` should leave. -/
def OpenBalanced (status : Status) (o : Option Opened) (p p' : Process) : Prop :=
  (status ≠ .success → p'.held = p.held) ∧
    (status = .success → ∃ device ∈ o, device.Owns p p')

/-- What a return of `airspyhf_list_devices` should leave. -/
def Host.ListBalanced (h : Host) (count : Option ℕ) (p : Process) : Prop :=
  ∃ status serials p', h.listDevices count p = some (status, serials, p') ∧ p'.held = p.held

variable {h : Host} {serialNumber : UInt64} {fd : ℤ} {p p' : Process} {status : Status}
  {o : Option Opened}

theorem Host.Opening.owns {i : ℕ} {p₁ p₂ : Process} {o : Opened}
    (ho : h.Opening i p p₁ p₂ o p') : o.Owns p p' := by
  refine ⟨o.resources, ho.held, ?_, ?_⟩
  · rw [ho.usb, ho.handle]
  · intro device transfers log bus others hperm
    refine ⟨_, _, Opened.close_eq ?_⟩
    have hresources : o.resources ~ ({ o with device := device, transfers := transfers } :
        Opened).resources := by
      simp only [Opened.resources, List.append_assoc]
      exact hperm.symm.append_right _
    rw [ho.held, Multiset.coe_eq_coe.2 hresources]

theorem openBalanced_iff (hr : h.openInit serialNumber fd p = some (status, o, p')) :
    OpenBalanced status o p p' ↔
      (h.Reaches serialNumber fd → ∀ r ∈ checkedBlocks, h.grants r) := by
  rw [← Host.exists_finds_iff]
  cases Host.openInit_run hr with
  | unfound hf hs =>
    exact iff_of_true ⟨fun _ => rfl, fun hsuccess => absurd hsuccess hs⟩
      fun ⟨i, hi⟩ => absurd hi (hf i)
  | refused hf hg =>
    refine iff_of_false ?_ fun hall => hg (hall ⟨_, hf⟩)
    rintro ⟨hheld, -⟩
    -- what stays behind is counted
    have hcard := congrArg Multiset.card (hheld (by decide))
    rw [Multiset.card_add, Multiset.card_cons] at hcard
    omega
  | opened hf hg ho =>
    exact iff_of_true ⟨fun hs => absurd rfl hs, fun _ => ⟨_, rfl, ho.owns⟩⟩ fun _ => hg

theorem listBalanced_iff (count : Option ℕ) :
    h.ListBalanced count p ↔ (h.grants .context → h.grants .deviceList) := by
  rw [Host.ListBalanced, Host.listDevices_eq]
  by_cases hc : h.grants .context
  case neg => exact iff_of_true ⟨_, _, _, congrArg some (if_neg hc), rfl⟩ fun hc' => absurd hc' hc
  by_cases hl : h.grants .deviceList
  · rw [if_pos hc, if_pos hl]
    exact iff_of_true ⟨_, _, _, rfl, rfl⟩ fun _ => hl
  · rw [if_pos hc, if_neg hl]
    refine iff_of_false ?_ fun hall => hl (hall hc)
    rintro ⟨status, serials, p', heq, hheld⟩
    obtain ⟨-, -, rfl⟩ := by simpa using heq
    have hcard := congrArg Multiset.card hheld
    rw [Process.acquire_held, Multiset.card_cons] at hcard
    omega

/-- **What opening and listing give back**: a return of `airspyhf_open_init` leaves what it should if
no buffer and no transfer is refused to a device that can be opened, and `airspyhf_list_devices` if
a device list comes with the context. -/
theorem balanced_iff (hr : h.openInit serialNumber fd p = some (status, o, p')) (count : Option ℕ)
    (q : Process) :
    (OpenBalanced status o p p' ↔
      (h.Reaches serialNumber fd → ∀ r ∈ checkedBlocks, h.grants r)) ∧
    (h.ListBalanced count q ↔ (h.grants .context → h.grants .deviceList)) :=
  ⟨openBalanced_iff hr, listBalanced_iff count⟩

/-- A host with one receiver, which answers no request. -/
def Host.single (grants : Resource → Bool) : Host :=
  .obliging [.receiver []] grants fun _ => .empty

theorem Host.single_reaches {grants : Resource → Bool} (hd : grants .device) (hc : grants .context)
    (hl : grants .deviceList) (hh : grants (.handle 0)) : (Host.single grants).Reaches 0 (-1) :=
  ⟨hd, hc, rfl, hl, 0, .receiver [], rfl, ⟨rfl, rfl⟩, hh, fun hs => absurd rfl hs, rfl, rfl, rfl⟩

/-- With everything granted, the receiver is opened and given back. -/
theorem single_balanced : ∃ status o p',
    (Host.single fun _ => true).openInit 0 (-1) ⟨0, []⟩ = some (status, o, p') ∧
      OpenBalanced status o ⟨0, []⟩ p' := by
  have hsome : ((Host.single fun _ => true).openInit 0 (-1) ⟨0, []⟩).isSome := by decide +kernel
  obtain ⟨⟨status, o, p'⟩, hr⟩ := Option.isSome_iff_exists.1 hsome
  refine ⟨status, o, p', hr, ?_⟩
  exact (balanced_iff hr none ⟨0, []⟩).1.2 fun _ _ _ => rfl

/-- The fourth buffer of the ring is refused: the three others and both tables stay behind.  No
device list comes with the context: the context stays behind. -/
theorem not_balanced :
    (∃ status o p', (Host.single fun r => r != .queueBuffer 3).openInit 0 (-1) ⟨0, []⟩ =
      some (status, o, p') ∧ ¬ OpenBalanced status o ⟨0, []⟩ p') ∧
    ¬ (Host.single fun r => r != .deviceList).ListBalanced none ⟨0, []⟩ := by
  constructor
  · have hsome : ((Host.single fun r => r != .queueBuffer 3).openInit 0 (-1) ⟨0, []⟩).isSome := by
      decide +kernel
    obtain ⟨⟨status, o, p'⟩, hr⟩ := Option.isSome_iff_exists.1 hsome
    refine ⟨status, o, p', hr, ?_⟩
    rw [openBalanced_iff hr]
    intro hall
    exact absurd (hall (Host.single_reaches rfl rfl rfl rfl) (.queueBuffer 3) (by decide))
      (by decide)
  · rw [listBalanced_iff]
    intro hall
    exact absurd (hall rfl) (by decide)

end AirspyHF
