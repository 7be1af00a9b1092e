import AirspyHF.Contract.Tables

/-!
# Listing and opening agree

A serial number that `airspyhf_list_devices` writes should be one that `airspyhf_open_sn` can open,
and `airspyhf_open_sn` should open no device but one with that number.  So it is, with one exception
by design: `SERIAL_NUMBER_UNUSED` stands for any receiver, so a receiver with that number is listed,
but asking for it opens the first receiver on the bus.
-/

namespace AirspyHF

/-- The device is a receiver with the given serial number. -/
def UsbDevice.Carries (d : UsbDevice) (serialNumber : UInt64) : Prop :=
  d.IsReceiver ∧ 0 < d.serialIndex ∧ d.HasSerial ∧ d.serial = serialNumber

instance (d : UsbDevice) (serialNumber : UInt64) : Decidable (d.Carries serialNumber) :=
  inferInstanceAs (Decidable (_ ∧ _ ∧ _ ∧ _))

namespace Host

variable (h : Host)

/-- All calls of libusb and all allocations succeed; the replies to the control requests are left
open. -/
structure Succeeds : Prop where
  grants : ∀ r, h.grants r
  answers : ∀ i, h.answers i
  configures : ∀ i, h.configures i
  claims : ∀ i, h.claims i
  selects : ∀ i, h.selects i

/-- The `i`-th device is the first one on the bus with the property. -/
def IsFirst (P : UsbDevice → Prop) (i : ℕ) : Prop :=
  (∃ d, h.devices[i]? = some d ∧ P d) ∧ ∀ j < i, ∀ d, h.devices[j]? = some d → ¬ P d

/-- Opening a device by the serial number opens the `i`-th device: whatever it returns is a success
with that device, and it returns if the tables of the firmware fit where they are written. -/
def OpensAt (serialNumber : UInt64) (i : ℕ) (p : Process) : Prop :=
  (∀ status o p', h.openSn serialNumber p = some (status, o, p') →
    status = .success ∧ ∃ device ∈ o, device.handle = i) ∧
  (TablesFit (h.replyAt p) → ∃ r, h.openSn serialNumber p = some r)

variable {h} {serialNumber : UInt64} {i : ℕ} {d : UsbDevice} {p p' : Process}

theorem exists_isFirst {P : UsbDevice → Prop} (hd : h.devices[i]? = some d) (hP : P d) :
    ∃ i, h.IsFirst P i := by
  classical
  have hex : ∃ i, ∃ d, h.devices[i]? = some d ∧ P d := ⟨i, d, hd, hP⟩
  refine ⟨Nat.find hex, Nat.find_spec hex, ?_⟩
  intro j hj d hget hP'
  exact Nat.find_min hex hj ⟨d, hget, hP'⟩

theorem Succeeds.opens_iff (hs : h.Succeeds) (hne : serialNumber ≠ serialNumberUnused) :
    h.Opens serialNumber i d ↔ d.Carries serialNumber := by
  constructor
  · rintro ⟨hr, -, hserial, -⟩
    obtain ⟨hi, -, hform, heq⟩ := hserial hne
    exact ⟨hr, hi, hform, heq⟩
  · rintro ⟨hr, hi, hform, heq⟩
    exact ⟨hr, hs.grants _, fun _ => ⟨hi, hs.answers i, hform, heq⟩, hs.configures i, hs.claims i,
      hs.selects i⟩

theorem Succeeds.opens_unused_iff (hs : h.Succeeds) :
    h.Opens serialNumberUnused i d ↔ d.IsReceiver := by
  constructor
  · intro ho
    exact ho.1
  · intro hr
    exact ⟨hr, hs.grants _, fun hne => absurd rfl hne, hs.configures i, hs.claims i, hs.selects i⟩

theorem Succeeds.finds_iff (hs : h.Succeeds) {P : UsbDevice → Prop}
    (hP : ∀ {i d}, h.Opens serialNumber i d ↔ P d) :
    h.Finds serialNumber fileDescriptorUnused i ↔ h.IsFirst P i := by
  constructor
  · rintro ⟨-, -, -, ht⟩
    obtain ⟨-, ⟨d, hget, hd⟩, hnone⟩ := target_eq_some_iff.1 ht
    exact ⟨⟨d, hget, hP.1 hd⟩, fun j hj d hget hd => hnone j hj d hget (hP.2 hd)⟩
  · rintro ⟨⟨d, hget, hd⟩, hnone⟩
    refine ⟨hs.grants _, hs.grants _, rfl, target_eq_some_iff.2 ⟨hs.grants _, ?_, ?_⟩⟩
    · exact ⟨d, hget, hP.2 hd⟩
    · exact fun j hj d hget hd => hnone j hj d hget (hP.1 hd)

theorem Succeeds.opensAt (hs : h.Succeeds) (hf : h.Finds serialNumber fileDescriptorUnused i) :
    h.OpensAt serialNumber i p := by
  constructor
  · intro status o p' hr
    cases openInit_run hr with
    | unfound hf' => exact absurd hf (hf' i)
    | refused hf' hg => exact absurd (fun r _ => hs.grants r) hg
    | opened hf' hg ho =>
      refine ⟨rfl, _, rfl, ho.handle.trans ?_⟩
      exact Option.some.inj (hf'.2.2.2.symm.trans hf.2.2.2)
  · intro hfit
    obtain ⟨o, p', -, -, heq, -⟩ := opening_of_fit (fun r _ => hs.grants r) hf hfit
    exact ⟨_, heq⟩

/-- A device with another serial number is never opened. -/
theorem carries_of_openSn (hne : serialNumber ≠ serialNumberUnused) {status : Status} {o : Opened}
    (hr : h.openSn serialNumber p = some (status, some o, p')) :
    ∃ d, h.devices[o.handle]? = some d ∧ d.Carries serialNumber := by
  cases openInit_run hr with
  | opened hf hg ho =>
    obtain ⟨-, ⟨d, hget, hreceiver, -, hserial, -⟩, -⟩ := target_eq_some_iff.1 hf.2.2.2
    obtain ⟨hi, -, hform, heq⟩ := hserial hne
    rw [ho.handle]
    exact ⟨d, hget, hreceiver, hi, hform, heq⟩

/-- **Listing and opening agree**: every serial number that is written, other than
`SERIAL_NUMBER_UNUSED`, opens the first receiver with that number; no such number opens another
device; and `SERIAL_NUMBER_UNUSED` opens the first receiver. -/
theorem listing_opens (hs : h.Succeeds) (count : ℕ) (p q : Process) :
    ∃ serials p', h.listDevices (some count) p = some (.success, serials, p') ∧
      (∀ s ∈ serials, s ≠ serialNumberUnused →
        ∃ i, h.IsFirst (·.Carries s) i ∧ h.OpensAt s i q) ∧
      (∀ s ≠ serialNumberUnused, ∀ status o q', h.openSn s q = some (status, some o, q') →
        ∃ d, h.devices[o.handle]? = some d ∧ d.Carries s) ∧
      ∀ i, h.IsFirst (·.IsReceiver) i → h.OpensAt serialNumberUnused i q := by
  refine ⟨(h.serials h.devices 0).take count, p, ?_, ?_, ?_, ?_⟩
  · rw [listDevices_eq, if_pos (hs.grants _), if_pos (hs.grants _)]
    rfl
  · intro s hmem hne
    obtain ⟨i, d, hget, hlists, heq⟩ := mem_serials (List.mem_of_mem_take hmem)
    obtain ⟨i, hfirst⟩ := exists_isFirst (P := (·.Carries s)) hget
      ⟨hlists.1, hlists.2.1, hlists.2.2.2.2.1, heq⟩
    exact ⟨i, hfirst, hs.opensAt ((hs.finds_iff (hs.opens_iff hne)).2 hfirst)⟩
  · intro s hne status o q' hr
    exact carries_of_openSn hne hr
  · intro i hfirst
    exact hs.opensAt ((hs.finds_iff hs.opens_unused_iff).2 hfirst)

/-! ### Two receivers -/

theorem succeeds_obliging (devices : List UsbDevice) (bus : ℕ → Reply) :
    (obliging devices (fun _ => true) bus).Succeeds :=
  ⟨fun _ => rfl, fun _ => rfl, fun _ => rfl, fun _ => rfl, fun _ => rfl⟩

/-- The serial numbers of the two receivers are `0000000000000001` and `0000000000000000`. -/
def twoReceivers : Host :=
  obliging [.receiver (strPrefixSerialAirspyhf ++ List.replicate 15 48 ++ [49]),
    .receiver (strPrefixSerialAirspyhf ++ List.replicate 16 48)] (fun _ => true) fun _ => .empty

theorem serials_twoReceivers : twoReceivers.serials twoReceivers.devices 0 = [1, 0] := by
  decide +kernel

/-- The first receiver is listed, and opened by its number. -/
theorem twoReceivers_opensAt : twoReceivers.OpensAt 1 0 ⟨0, []⟩ := by
  obtain ⟨serials, p', hl, hopen, -⟩ :=
    listing_opens (succeeds_obliging _ _) 2 (h := twoReceivers) ⟨0, []⟩ ⟨0, []⟩
  rw [listDevices_eq, serials_twoReceivers] at hl
  obtain rfl : [1, 0] = serials := congrArg (fun r => r.2.1) (Option.some.inj hl)
  obtain ⟨i, hfirst, ho⟩ := hopen 1 (by decide) (by decide)
  have hcarries : (UsbDevice.receiver (strPrefixSerialAirspyhf ++ List.replicate 15 48 ++
      [49])).Carries 1 := by decide +kernel
  cases i with
  | zero => exact ho
  | succ i => exact absurd hcarries (hfirst.2 0 i.succ_pos _ rfl)

/-- The second receiver is listed, and its number opens the first. -/
theorem twoReceivers_unused : twoReceivers.Succeeds ∧
    (∃ p', twoReceivers.listDevices (some 2) ⟨0, []⟩ = some (.success, [1, 0], p')) ∧
    ∃ o p', twoReceivers.openSn 0 ⟨0, []⟩ = some (.success, some o, p') ∧
      ∃ d, twoReceivers.devices[o.handle]? = some d ∧ ¬ d.Carries 0 := by
  have hs : twoReceivers.Succeeds := succeeds_obliging _ _
  have hf : twoReceivers.Finds 0 fileDescriptorUnused 0 := ⟨rfl, rfl, rfl, by decide⟩
  refine ⟨hs, ⟨⟨0, []⟩, ?_⟩, ?_⟩
  · rw [listDevices_eq, serials_twoReceivers]
    rfl
  · obtain ⟨o, p', _, _, heq, ho⟩ :=
      opening_of_fit (p := ⟨0, []⟩) (fun r _ => hs.grants r) hf (by decide)
    refine ⟨o, p', heq, _, by rw [ho.handle]; rfl, ?_⟩
    decide +kernel

end Host

end AirspyHF
