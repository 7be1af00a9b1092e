import AirspyHF.Machine.Ledger
import AirspyHF.Usb.Control

/-!
# The host

What surrounds one call of the driver that finds, opens or closes a device: the devices on the bus,
the calls of libusb and the allocations that succeed, the replies to the control requests, and what
fresh memory holds.  Every combination of these is some `Host`, so a statement about all hosts is a
statement about every choice of what fails.

A `Process` is what the driver has acquired and not given back, and the control requests it has
issued.  Operations on it that give something back are partial: they are stuck on what is not held.
-/

namespace AirspyHF

/-- A device on the bus. -/
structure UsbDevice where
  /-- `idVendor`. -/
  vendor : UInt16
  /-- `idProduct`. -/
  product : UInt16
  /-- `iSerialNumber`. -/
  serialIndex : UInt8
  /-- The characters that libusb makes of the string descriptor with that index. -/
  serialText : List UInt8

/-- What the driver acquires. -/
inductive Resource where
  /-- The device structure. -/
  | device
  | context
  | deviceList
  /-- The handle of the `i`-th device on the bus. -/
  | handle (i : ℕ)
  | samplerates
  | architectures
  | defaultSamplerates
  | defaultArchitectures
  | attSteps
  | defaultAttSteps
  | outputBuffer
  | queueBuffer (i : ℕ)
  /-- The array of transfers. -/
  | transfers
  | transfer (i : ℕ)
  | transferBuffer (i : ℕ)
  | balancer
  | corr
  | corrPlus
  | workingBuffer
  | boost
  | powerFlag
  deriving DecidableEq, Repr

/-- The resource is memory. -/
def Resource.isBlock : Resource → Bool
  | .context => false
  | .deviceList => false
  | .handle _ => false
  | _ => true

/-- What surrounds a call. -/
structure Host where
  /-- The device list. -/
  devices : List UsbDevice
  /-- The call that acquires the resource succeeds. -/
  grants : Resource → Bool
  /-- `libusb_get_string_descriptor_ascii` succeeds on the `i`-th device. -/
  answers : ℕ → Bool
  /-- `libusb_set_configuration` succeeds on the `i`-th device. -/
  configures : ℕ → Bool
  /-- `libusb_claim_interface` succeeds on the `i`-th device. -/
  claims : ℕ → Bool
  /-- `libusb_set_interface_alt_setting` succeeds on the `i`-th device. -/
  selects : ℕ → Bool
  /-- The reply to the `n`-th control request. -/
  bus : ℕ → Reply
  /-- What the memory of a fresh block holds. -/
  heap : Resource → ℕ → UInt8
  /-- What the page buffer of `airspyhf_config_read` holds before the transfer. -/
  stack : Fin 256 → UInt8

/-- A host whose devices do what they are asked to. -/
def Host.obliging (devices : List UsbDevice) (grants : Resource → Bool) (bus : ℕ → Reply) : Host where
  devices := devices
  grants := grants
  answers _ := true
  configures _ := true
  claims _ := true
  selects _ := true
  bus := bus
  heap _ _ := 0
  stack _ := 0

/-- What the driver holds, and the control requests it has issued, most recent first. -/
structure Process where
  held : Multiset Resource
  log : List Exchange

namespace Process

variable (p : Process)

/-- A resource is acquired. -/
def acquire (r : Resource) : Process := { p with held := r ::ₘ p.held }

/-- A resource is given back. -/
def release (r : Resource) : Option Process :=
  (Ledger.release p.held r).map fun held => { p with held := held }

/-- Several resources are given back, in order. -/
def releaseAll (rs : List Resource) : Option Process :=
  (Ledger.releaseAll p.held rs).map fun held => { p with held := held }

/-- The exchange that takes place if the driver issues the request now. -/
def exchange (bus : ℕ → Reply) (q : Request) : Exchange := ⟨q, bus p.log.length⟩

/-- The driver issues the request. -/
def issue (bus : ℕ → Reply) (q : Request) : Process := { p with log := p.exchange bus q :: p.log }

variable {p}

@[simp] theorem acquire_held (r : Resource) : (p.acquire r).held = r ::ₘ p.held := rfl
@[simp] theorem acquire_log (r : Resource) : (p.acquire r).log = p.log := rfl
@[simp] theorem issue_held (bus : ℕ → Reply) (q : Request) : (p.issue bus q).held = p.held := rfl
@[simp] theorem issue_log (bus : ℕ → Reply) (q : Request) :
    (p.issue bus q).log = ⟨q, bus p.log.length⟩ :: p.log :=
  rfl

@[simp] theorem release_acquire (r : Resource) : (p.acquire r).release r = some p := by
  rw [release, acquire_held, Ledger.release_cons]
  rfl

theorem release_eq_some_iff {p' : Process} {r : Resource} :
    p.release r = some p' ↔ p.held = r ::ₘ p'.held ∧ p'.log = p.log := by
  rw [release, Option.map_eq_some_iff]
  constructor
  · rintro ⟨held, h, rfl⟩
    exact ⟨Ledger.release_eq_some_iff.1 h, rfl⟩
  · rintro ⟨hheld, hlog⟩
    refine ⟨p'.held, Ledger.release_eq_some_iff.2 hheld, ?_⟩
    rw [← hlog]

theorem releaseAll_eq_some_iff {p' : Process} {rs : List Resource} :
    p.releaseAll rs = some p' ↔ p.held = ↑rs + p'.held ∧ p'.log = p.log := by
  rw [releaseAll, Option.map_eq_some_iff]
  constructor
  · rintro ⟨held, h, rfl⟩
    exact ⟨Ledger.releaseAll_eq_some_iff.1 h, rfl⟩
  · rintro ⟨hheld, hlog⟩
    refine ⟨p'.held, Ledger.releaseAll_eq_some_iff.2 hheld, ?_⟩
    rw [← hlog]

end Process

end AirspyHF
