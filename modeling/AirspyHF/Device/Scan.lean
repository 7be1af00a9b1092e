import AirspyHF.C.Strtoull
import AirspyHF.Usb.Host

/-!
# Finding devices

`airspyhf_list_devices` collects the serial numbers of the receivers on the bus, and
`airspyhf_open_device` opens the first receiver with a given serial number, or the first receiver at
all.  Both scan the bus, each with its own loop.
-/

namespace AirspyHF

/-- `airspyhf_usb_vid`. -/
def airspyhfUsbVid : UInt16 := 0x03EB

/-- `airspyhf_usb_pid`. -/
def airspyhfUsbPid : UInt16 := 0x800C

/-- `SERIAL_NUMBER_UNUSED`. -/
def serialNumberUnused : UInt64 := 0

/-- `AIRSPYHF_SERIAL_SIZE`. -/
def airspyhfSerialSize : ℕ := 28

/-- `str_prefix_serial_airspyhf`: `AIRSPYHF SN:`. -/
def strPrefixSerialAirspyhf : List UInt8 := [65, 73, 82, 83, 80, 89, 72, 70, 32, 83, 78, 58]

namespace UsbDevice

variable (d : UsbDevice)

/-- The device is a receiver. -/
def IsReceiver : Prop := d.vendor = airspyhfUsbVid ∧ d.product = airspyhfUsbPid

instance : Decidable d.IsReceiver := inferInstanceAs (Decidable (_ ∧ _))

/-- A receiver with the given text of its serial number. -/
def receiver (serialText : List UInt8) : UsbDevice :=
  ⟨airspyhfUsbVid, airspyhfUsbPid, 1, serialText⟩

/-- What libusb writes to the driver's buffer, which has room for `AIRSPYHF_SERIAL_SIZE` characters
and the final zero. -/
def serialNumber : List UInt8 := d.serialText.take airspyhfSerialSize

/-- The text that libusb writes has the form of a serial number. -/
def HasSerial : Prop :=
  d.serialNumber.length = airspyhfSerialSize ∧
    d.serialNumber.take strPrefixSerialAirspyhf.length = strPrefixSerialAirspyhf

instance : Decidable d.HasSerial := inferInstanceAs (Decidable (_ ∧ _))

/-- The result of `strtoull` on what follows `AIRSPYHF SN:`. -/
def parsed : UInt64 × ℕ :=
  C.strtoull 16 (d.serialNumber.drop strPrefixSerialAirspyhf.length)

/-- The serial number. -/
def serial : UInt64 := d.parsed.1

end UsbDevice

namespace Host

variable (h : Host)

/-! ### Listing -/

/-- The loop of `airspyhf_list_devices` from the `i`-th device on; `count` is the number of entries
of the caller's array, if it passes one, and `serials` what has been found so far. -/
def listFrom (count : Option ℕ) : List UsbDevice → ℕ → List UInt64 → Process →
    Option (List UInt64 × Process)
  | [], _, serials, p => some (serials, p)
  | d :: ds, i, serials, p =>
    if ∀ n ∈ count, serials.length < n then
      if d.IsReceiver ∧ 0 < d.serialIndex ∧ h.grants (.handle i) then
        let p := p.acquire (.handle i)
        if h.answers i ∧ d.HasSerial then
          -- a text without a digit is no serial number
          let found := if d.parsed.1 = 0 ∧ d.parsed.2 = 0 then serials else serials ++ [d.parsed.1]
          (p.release (.handle i)).bind (listFrom count ds (i + 1) found)
        else (p.release (.handle i)).bind (listFrom count ds (i + 1) serials)
      else listFrom count ds (i + 1) serials p
    else some (serials, p)

/-- `airspyhf_list_devices`: the serial numbers it writes to the caller's array, or counts if there
is no array.  Without a device list it returns with the context still open. -/
def listDevices (count : Option ℕ) (p : Process) : Option (Status × List UInt64 × Process) :=
  if h.grants .context then
    let p := p.acquire .context
    if h.grants .deviceList then
      let p := p.acquire .deviceList
      (h.listFrom count h.devices 0 [] p).bind fun (serials, p) =>
        (p.release .deviceList).bind fun p =>
          (p.release .context).map fun p => (.success, serials, p)
    else some (.error, [], p)
  else some (.error, [], p)

/-! ### Opening -/

/-- The open device is configured, or closed again; the flag says that it stays open. -/
def setUp (i : ℕ) (p : Process) : Option (Bool × Process) :=
  if h.configures i ∧ h.claims i ∧ h.selects i then some (true, p)
  else (p.release (.handle i)).map fun p => (false, p)

/-- One turn of the loop of `airspyhf_open_device`; the flag says that the `i`-th device stays
open. -/
def openTurn (serialNumberVal : UInt64) (d : UsbDevice) (i : ℕ) (p : Process) :
    Option (Bool × Process) :=
  if d.IsReceiver then
    if serialNumberVal ≠ serialNumberUnused then
      if 0 < d.serialIndex ∧ h.grants (.handle i) then
        let p := p.acquire (.handle i)
        if h.answers i ∧ d.HasSerial then
          if d.serial = serialNumberVal then h.setUp i p
          else (p.release (.handle i)).map fun p => (false, p)
        else (p.release (.handle i)).map fun p => (false, p)
      else some (false, p)
    else if h.grants (.handle i) then h.setUp i (p.acquire (.handle i))
    else some (false, p)
  else some (false, p)

/-- The loop of `airspyhf_open_device` from the `i`-th device on: the device that stays open. -/
def openFrom (serialNumberVal : UInt64) : List UsbDevice → ℕ → Process →
    Option (Option ℕ × Process)
  | [], _, p => some (none, p)
  | d :: ds, i, p =>
    (h.openTurn serialNumberVal d i p).bind fun (stays, p) =>
      if stays then some (some i, p) else openFrom serialNumberVal ds (i + 1) p

/-- `airspyhf_open_device`: the device that stays open. -/
def openDevice (serialNumberVal : UInt64) (p : Process) : Option (Status × Option ℕ × Process) :=
  if h.grants .deviceList then
    (h.openFrom serialNumberVal h.devices 0 (p.acquire .deviceList)).bind fun (handle, p) =>
      (p.release .deviceList).map fun p =>
        (if handle.isSome then .success else .error, handle, p)
  else some (.error, none, p)

/-! ### What the scans find -/

/-- The `i`-th device is listed. -/
def Lists (i : ℕ) (d : UsbDevice) : Prop :=
  d.IsReceiver ∧ 0 < d.serialIndex ∧ h.grants (.handle i) ∧ h.answers i ∧ d.HasSerial ∧
    ¬ (d.parsed.1 = 0 ∧ d.parsed.2 = 0)

instance (i : ℕ) (d : UsbDevice) : Decidable (h.Lists i d) :=
  inferInstanceAs (Decidable (_ ∧ _ ∧ _ ∧ _ ∧ _ ∧ _))

/-- The scan for a serial number stays at the `i`-th device. -/
def Opens (serialNumberVal : UInt64) (i : ℕ) (d : UsbDevice) : Prop :=
  d.IsReceiver ∧ h.grants (.handle i) ∧
    (serialNumberVal ≠ serialNumberUnused →
      0 < d.serialIndex ∧ h.answers i ∧ d.HasSerial ∧ d.serial = serialNumberVal) ∧
    h.configures i ∧ h.claims i ∧ h.selects i

instance (serialNumberVal : UInt64) (i : ℕ) (d : UsbDevice) :
    Decidable (h.Opens serialNumberVal i d) :=
  inferInstanceAs (Decidable (_ ∧ _ ∧ (_ → _) ∧ _ ∧ _ ∧ _))

/-- The serial numbers of the devices that are listed, from the `i`-th on. -/
def serials (ds : List UsbDevice) (i : ℕ) : List UInt64 :=
  ((ds.zipIdx i).filter fun x => h.Lists x.2 x.1).map fun x => x.1.serial

/-- The first device that the scan stays at, from the `i`-th on. -/
def first (serialNumberVal : UInt64) (ds : List UsbDevice) (i : ℕ) : Option ℕ :=
  ((ds.zipIdx i).find? fun x => h.Opens serialNumberVal x.2 x.1).map Prod.snd

/-- The device on the bus that `airspyhf_open_device` leaves open. -/
def target (serialNumberVal : UInt64) : Option ℕ :=
  if h.grants .deviceList then h.first serialNumberVal h.devices 0 else none

variable {h} {p : Process} {serialNumberVal : UInt64} {d : UsbDevice} {ds : List UsbDevice} {i : ℕ}

theorem serials_cons : h.serials (d :: ds) i =
    (if h.Lists i d then [d.serial] else []) ++ h.serials ds (i + 1) := by
  rw [serials, List.zipIdx_cons, List.filter_cons]
  by_cases hd : h.Lists i d
  · rw [if_pos (decide_eq_true hd), if_pos hd]
    rfl
  · rw [if_neg fun ht => hd (of_decide_eq_true ht), if_neg hd]
    rfl

theorem first_cons : h.first serialNumberVal (d :: ds) i =
    if h.Opens serialNumberVal i d then some i else h.first serialNumberVal ds (i + 1) := by
  rw [first, List.zipIdx_cons, List.find?_cons]
  by_cases hd : h.Opens serialNumberVal i d
  · rw [decide_eq_true hd, if_pos hd]
    rfl
  · rw [decide_eq_false hd, if_neg hd]
    rfl

theorem mem_serials {s : UInt64} (hs : s ∈ h.serials ds 0) :
    ∃ i d, ds[i]? = some d ∧ h.Lists i d ∧ d.serial = s := by
  obtain ⟨⟨d, i⟩, hmem, rfl⟩ := List.mem_map.1 hs
  obtain ⟨hget, hlists⟩ := List.mem_filter.1 hmem
  exact ⟨i, d, List.mem_zipIdx_iff_getElem?.1 hget, of_decide_eq_true hlists, rfl⟩

/-- The scan stays at the first device that it can stay at. -/
theorem first_eq_some_iff : h.first serialNumberVal ds 0 = some i ↔
    (∃ d, ds[i]? = some d ∧ h.Opens serialNumberVal i d) ∧
      ∀ j < i, ∀ d, ds[j]? = some d → ¬ h.Opens serialNumberVal j d := by
  rw [first, Option.map_eq_some_iff]
  simp only [List.find?_eq_some_iff_getElem, List.getElem_zipIdx, List.length_zipIdx, zero_add,
    decide_eq_true_eq, Bool.not_eq_true', decide_eq_false_iff_not]
  constructor
  · rintro ⟨⟨d, _⟩, ⟨hd, j, hj, heq, hnone⟩, rfl⟩
    obtain ⟨rfl, rfl⟩ := Prod.mk.inj heq
    refine ⟨⟨_, List.getElem?_eq_getElem hj, hd⟩, ?_⟩
    intro k hk d hget
    obtain ⟨_, rfl⟩ := List.getElem?_eq_some_iff.1 hget
    exact hnone k hk
  · rintro ⟨⟨d, hget, hd⟩, hnone⟩
    obtain ⟨hi, rfl⟩ := List.getElem?_eq_some_iff.1 hget
    refine ⟨(ds[i], i), ⟨hd, i, hi, rfl, ?_⟩, rfl⟩
    intro j hj
    exact hnone j hj _ (List.getElem?_eq_getElem (hj.trans hi))

/-! ### What the loops do -/

theorem setUp_eq : h.setUp i (p.acquire (.handle i)) =
    some (if h.configures i ∧ h.claims i ∧ h.selects i then (true, p.acquire (.handle i))
      else (false, p)) := by
  rw [setUp, Process.release_acquire]
  split <;> rfl

/-- A turn of the loop that does not stay at a device leaves everything as it was. -/
theorem openTurn_eq : h.openTurn serialNumberVal d i p =
    some (if h.Opens serialNumberVal i d then (true, p.acquire (.handle i)) else (false, p)) := by
  -- what is left to decide when the device is the one looked for
  have hleft (hr : d.IsReceiver) (hg : h.grants (.handle i)) (hs : serialNumberVal ≠
      serialNumberUnused → 0 < d.serialIndex ∧ h.answers i ∧ d.HasSerial ∧
        d.serial = serialNumberVal) : h.setUp i (p.acquire (.handle i)) =
      some (if h.Opens serialNumberVal i d then (true, p.acquire (.handle i)) else (false, p)) := by
    have hiff : h.configures i ∧ h.claims i ∧ h.selects i ↔ h.Opens serialNumberVal i d :=
      ⟨fun hc => ⟨hr, hg, hs, hc⟩, fun ho => ho.2.2.2⟩
    rw [setUp_eq]
    exact congrArg some (if_congr hiff rfl rfl)
  unfold openTurn
  by_cases hr : d.IsReceiver
  case neg => rw [if_neg hr, if_neg fun ho => hr ho.1]
  rw [if_pos hr]
  by_cases hs : serialNumberVal ≠ serialNumberUnused
  · rw [if_pos hs]
    by_cases hg : 0 < d.serialIndex ∧ h.grants (.handle i)
    case neg => rw [if_neg hg, if_neg fun ho => hg ⟨(ho.2.2.1 hs).1, ho.2.1⟩]
    rw [if_pos hg]
    dsimp only
    rw [Process.release_acquire, Option.map_some]
    by_cases ha : h.answers i ∧ d.HasSerial
    case neg =>
      rw [if_neg ha, if_neg fun ho => ha ⟨(ho.2.2.1 hs).2.1, (ho.2.2.1 hs).2.2.1⟩]
    rw [if_pos ha]
    by_cases heq : d.serial = serialNumberVal
    case neg => rw [if_neg heq, if_neg fun ho => heq (ho.2.2.1 hs).2.2.2]
    rw [if_pos heq]
    exact hleft hr hg.2 fun _ => ⟨hg.1, ha.1, ha.2, heq⟩
  · rw [if_neg hs]
    by_cases hg : h.grants (.handle i)
    case neg => rw [if_neg hg, if_neg fun ho => hg ho.2.1]
    rw [if_pos hg]
    exact hleft hr hg fun hs' => absurd hs' hs

theorem openFrom_eq : h.openFrom serialNumberVal ds i p =
    some (h.first serialNumberVal ds i,
      (h.first serialNumberVal ds i).elim p fun i => p.acquire (.handle i)) := by
  induction ds generalizing i with
  | nil => rfl
  | cons d ds ih =>
    rw [openFrom, openTurn_eq, Option.bind_some, first_cons]
    by_cases hd : h.Opens serialNumberVal i d
    · rw [if_pos hd, if_pos hd]
      rfl
    · rw [if_neg hd, if_neg hd]
      exact ih

theorem listFrom_eq {count : Option ℕ} {found : List UInt64}
    (hfound : ∀ n ∈ count, found.length ≤ n) : h.listFrom count ds i found p =
      some (count.elim (found ++ h.serials ds i) (found ++ h.serials ds i).take, p) := by
  induction ds generalizing i found with
  | nil =>
    rw [listFrom, serials, List.zipIdx_nil, List.filter_nil, List.map_nil, List.append_nil]
    cases count with
    | none => rfl
    | some n => rw [Option.elim_some, List.take_of_length_le (hfound n rfl)]
  | cons d ds ih =>
    unfold listFrom
    by_cases hroom : ∀ n ∈ count, found.length < n
    · have hfound' : ∀ n ∈ count, (found ++ [d.serial]).length ≤ n := by
        intro n hn
        have := hroom n hn
        rw [List.length_append, List.length_singleton]
        omega
      rw [if_pos hroom, serials_cons]
      by_cases hr : d.IsReceiver ∧ 0 < d.serialIndex ∧ h.grants (.handle i)
      case neg =>
        rw [if_neg hr, if_neg fun hl => hr ⟨hl.1, hl.2.1, hl.2.2.1⟩]
        exact ih hfound
      rw [if_pos hr]
      dsimp only
      rw [Process.release_acquire]
      by_cases ha : h.answers i ∧ d.HasSerial
      case neg =>
        rw [if_neg ha, if_neg fun hl => ha ⟨hl.2.2.2.1, hl.2.2.2.2.1⟩]
        exact ih hfound
      rw [if_pos ha]
      by_cases hz : d.parsed.1 = 0 ∧ d.parsed.2 = 0
      · rw [if_pos hz, if_neg fun hl => hl.2.2.2.2.2 hz]
        exact ih hfound
      · rw [if_neg hz, if_pos ⟨hr.1, hr.2.1, hr.2.2, ha.1, ha.2, hz⟩, ← List.append_assoc]
        exact ih hfound'
    · obtain ⟨n, rfl, hn⟩ := by simpa using hroom
      have hlen : found.length = n := le_antisymm (hfound n rfl) hn
      rw [if_neg hroom, Option.elim_some, List.take_append_of_le_length hn, ← hlen,
        List.take_length]

/-- Listing gives back everything it acquires, unless there is a context but no device list. -/
theorem listDevices_eq (count : Option ℕ) : h.listDevices count p = some
    (if h.grants .context then
      if h.grants .deviceList then
        (.success, count.elim (h.serials h.devices 0) (h.serials h.devices 0).take, p)
      else (.error, [], p.acquire .context)
    else (.error, [], p)) := by
  unfold listDevices
  by_cases hc : h.grants .context
  case neg => rw [if_neg hc, if_neg hc]
  rw [if_pos hc, if_pos hc]
  by_cases hl : h.grants .deviceList
  case neg => rw [if_neg hl, if_neg hl]
  have hroom : ∀ n ∈ count, ([] : List UInt64).length ≤ n := fun n _ => Nat.zero_le n
  rw [if_pos hl, if_pos hl]
  dsimp only
  rw [listFrom_eq hroom]
  dsimp only [Option.bind_some]
  rw [Process.release_acquire, Option.bind_some, Process.release_acquire]
  rfl

theorem openDevice_eq : h.openDevice serialNumberVal p = some
    (if (h.target serialNumberVal).isSome then .success else .error, h.target serialNumberVal,
      (h.target serialNumberVal).elim p fun i => p.acquire (.handle i)) := by
  rw [openDevice, target]
  by_cases hl : h.grants .deviceList
  case neg =>
    rw [if_neg hl, if_neg hl]
    rfl
  rw [if_pos hl, if_pos hl, openFrom_eq, Option.bind_some]
  cases h.first serialNumberVal h.devices 0 with
  | none =>
    dsimp only [Option.elim_none]
    rw [Process.release_acquire]
    rfl
  | some i =>
    have hrelease : ((p.acquire .deviceList).acquire (.handle i)).release .deviceList =
        some (p.acquire (.handle i)) :=
      Process.release_eq_some_iff.2 ⟨Multiset.cons_swap .., rfl⟩
    dsimp only [Option.elim_some]
    rw [hrelease]
    rfl

theorem target_eq_some_iff : h.target serialNumberVal = some i ↔
    h.grants .deviceList ∧ (∃ d, h.devices[i]? = some d ∧ h.Opens serialNumberVal i d) ∧
      ∀ j < i, ∀ d, h.devices[j]? = some d → ¬ h.Opens serialNumberVal j d := by
  rw [target, Option.ite_none_right_eq_some, first_eq_some_iff]

theorem exists_target_iff : (∃ i, h.target serialNumberVal = some i) ↔
    h.grants .deviceList ∧ ∃ i d, h.devices[i]? = some d ∧ h.Opens serialNumberVal i d := by
  constructor
  · rintro ⟨i, ht⟩
    obtain ⟨hl, ⟨d, hd⟩, -⟩ := target_eq_some_iff.1 ht
    exact ⟨hl, i, d, hd⟩
  · rintro ⟨hl, i, d, hget, hd⟩
    have hfound : (h.first serialNumberVal h.devices 0).isSome := by
      rw [first, Option.isSome_map, List.find?_isSome]
      exact ⟨(d, i), List.mem_zipIdx_iff_getElem?.2 hget, decide_eq_true hd⟩
    rw [target, if_pos hl]
    exact Option.isSome_iff_exists.1 hfound

end Host

end AirspyHF
