import AirspyHF.Device.Config
import AirspyHF.Device.Scan
import AirspyHF.Device.Streaming
import AirspyHF.Device.Tables

/-!
# Opening and closing a device

`Host.openInit` is `airspyhf_open_init`: it acquires the device structure and a context, finds and
opens a device, loads the tables of the firmware, allocates the buffers and the transfers, loads the
stored settings and creates the IQ balancer.  Its result is `none` where the C program is stuck: it
writes through a null pointer or past the end of a block.  `Opened.close` is `airspyhf_close`.
-/

namespace AirspyHF

/-- `FILE_DESCRIPTOR_UNUSED`. -/
def fileDescriptorUnused : ℤ := -1

/-! ### The buffers and the balancer -/

/-- The resources of the transfers of a device. -/
structure TransferMemory where
  /-- `output_buffer`, if it was allocated. -/
  outputBuffer : Option Resource
  /-- `received_samples_queue`. -/
  queue : List Resource
  /-- `transfers`: every transfer with its buffer. -/
  transfers : List (Resource × Resource)

/-- The buffers of the ring, in the order of their allocation. -/
def queueBuffers : List Resource := (List.range rawBufferCount).map .queueBuffer

/-- The transfers and their buffers, in the order of their allocation. -/
def transferBlocks : List Resource :=
  (List.range transferCount).flatMap fun i => [.transfer i, .transferBuffer i]

/-- What `allocate_transfers` allocates and looks at, in order. -/
def checkedBlocks : List Resource := queueBuffers ++ .transfers :: transferBlocks

/-- What `free_transfers` gives back, in order. -/
def TransferMemory.resources (m : TransferMemory) : List Resource :=
  m.outputBuffer.toList ++ m.transfers.flatMap (fun t => [t.2, t.1]) ++ .transfers :: m.queue

namespace Host

variable (h : Host)

/-- Resources are acquired in order, until one is refused. -/
def acquireEach : List Resource → Process → Bool × Process
  | [], p => (true, p)
  | r :: rs, p => if h.grants r then acquireEach rs (p.acquire r) else (false, p)

/-- `allocate_transfers` on a device without transfers.  It returns at the first allocation that
fails; that of the output buffer is not looked at. -/
def allocateTransfers (p : Process) : Option TransferMemory × Process :=
  let (output, p) := p.malloc h .outputBuffer (4096 * 8)
  match h.acquireEach checkedBlocks p with
  | (true, p) =>
    (some ⟨output.owner, queueBuffers,
      (List.range transferCount).map fun i => (.transfer i, .transferBuffer i)⟩, p)
  | (false, p) => (none, p)

/-- The allocations of `iq_balancer_create` after that of the balancer itself, none of which is
looked at. -/
def balancerBlocks : List Resource := [.corr, .corrPlus, .workingBuffer, .boost, .powerFlag]

/-- `iq_balancer_create`: what it allocates.  It clears the balancer, so it is stuck without. -/
def createBalancer (p : Process) : Option (List Resource × Process) :=
  if h.grants .balancer then
    let blocks := balancerBlocks.filter fun r => h.grants r
    some (blocks ++ [.balancer], blocks.foldl Process.acquire (p.acquire .balancer))
  else none

end Host

/-! ### Opening -/

/-- The table of sample rates as the driver reads it. -/
def RateMemory.table (t : RateMemory) : RateTable where
  count := t.count
  rates := (List.range t.count.toNat).map t.rates.word
  architectures := (List.range t.count.toNat).map t.architectures.byte
  count_le_rates := by simp
  count_le_architectures := by simp

/-- The device when its tables are loaded. -/
def RateMemory.device (t : RateMemory) (currentSamplerate : UInt32) (isLowIf : UInt8) : Device where
  table := t.table
  currentSamplerate := currentSamplerate
  freqHz := 0
  freqKhz := 0
  freqDeltaHz := 0
  freqShift := 0
  calibrationPpb := 0
  calibrationVctcxo := 0
  frontendOptions := 0
  optimalPoint := 0
  enableDsp := 1
  isLowIf := isLowIf
  filterGain := 1
  vec := (1, 0)
  iqBalancer := ⟨fftBins / 2, false⟩
  stream := .initial

/-- An open device: the device structure and the memory behind its pointers. -/
structure Opened where
  device : Device
  /-- The device on the bus that is open. -/
  handle : ℕ
  rates : RateMemory
  attSteps : AttMemory
  transfers : TransferMemory
  /-- The blocks of the IQ balancer. -/
  balancer : List Resource

/-- `airspyhf_open_exit` on a device with an open handle. -/
def Process.openExit (handle : ℕ) (p : Process) : Option Process :=
  (p.release (.handle handle)).bind fun p => p.release .context

namespace Host

variable (h : Host)

/-- `airspyhf_open_init` from the loading of the tables on. -/
def initDevice (handle : ℕ) (p : Process) : Option (Status × Option Opened × Process) :=
  (h.loadRates p).bind fun (rates, p) =>
    (rates.rates.word? 0).bind fun currentSamplerate =>
      (rates.architectures.byte? 0).bind fun isLowIf =>
        (h.loadAttSteps p).bind fun (attSteps, p) =>
          match h.allocateTransfers p with
          | (none, p) =>
            -- the tables and what was allocated for the transfers are not given back
            (p.openExit handle).bind fun p =>
              (p.release .device).map fun p => (.error, none, p)
          | (some transfers, p) =>
            let w := loadConfig h.stack ⟨rates.device currentSamplerate isLowIf, p.log, h.bus⟩
            (h.createBalancer ⟨p.held, w.log⟩).map fun (balancer, p) =>
              (.success, some ⟨w.device, handle, rates, attSteps, transfers, balancer⟩, p)

/-- `airspyhf_open_init`. -/
def openInit (serialNumber : UInt64) (fd : ℤ) (p : Process) :
    Option (Status × Option Opened × Process) :=
  if h.grants .device then
    let p := p.acquire .device
    if h.grants .context then
      let p := p.acquire .context
      -- `airspyhf_open_device_fd` is for Android only
      (if fd = fileDescriptorUnused then h.openDevice serialNumber p
        else some (.unsupported, none, p)).bind fun (result, handle, p) =>
          match handle with
          | none =>
            (p.release .context).bind fun p =>
              (p.release .device).map fun p => (result, none, p)
          | some i => h.initDevice i p
    else (p.release .device).map fun p => (.error, none, p)
  else some (.error, none, p)

/-- `airspyhf_open_sn`. -/
def openSn (serialNumber : UInt64) : Process → Option (Status × Option Opened × Process) :=
  h.openInit serialNumber fileDescriptorUnused

/-- `airspyhf_open_fd`. -/
def openFd (fd : ℤ) : Process → Option (Status × Option Opened × Process) :=
  h.openInit serialNumberUnused fd

/-- `airspyhf_open`. -/
def open' : Process → Option (Status × Option Opened × Process) :=
  h.openInit serialNumberUnused fileDescriptorUnused

end Host

/-! ### Closing -/

namespace Opened

variable (o : Opened)

/-- What an open device holds, in the order in which `airspyhf_close` gives it back. -/
def resources : List Resource :=
  o.transfers.resources ++ [.handle o.handle, .context] ++ o.rates.rates.owner.toList ++
    o.rates.architectures.owner.toList ++ o.attSteps.steps.owner.toList ++ o.balancer ++ [.device]

/-- `airspyhf_close`: the stream is stopped, then everything is given back; `others` is what event
handling and the threads do to the streaming state during the stop. -/
def close (bus : ℕ → Reply) (others : Stream → Stream) (p : Process) : Option (Status × Process) :=
  let (result, w) := stop others ⟨o.device, p.log, bus⟩
  (Process.releaseAll ⟨p.held, w.log⟩ o.resources).map fun p => (result, p)

end Opened

end AirspyHF
