import AirspyHF.Machine.Basic
import AirspyHF.Machine.Ring
import AirspyHF.Machine.Handle
import AirspyHF.Machine.Ledger
import AirspyHF.Machine.Collector
import AirspyHF.Machine.Cover
import AirspyHF.Machine.Decay
import AirspyHF.Machine.Independent
import AirspyHF.Machine.Leaky
import AirspyHF.Machine.Mirror
import AirspyHF.Machine.Potential
import AirspyHF.Machine.Recent
import AirspyHF.Machine.Traced
import AirspyHF.C.Arith
import AirspyHF.C.Strtoull
import AirspyHF.Usb.Control
import AirspyHF.Usb.Host
import AirspyHF.Usb.Memory
import AirspyHF.Stream.Basic
import AirspyHF.Stream.Session
import AirspyHF.Stream.Engine
import AirspyHF.Stream.Moves
import AirspyHF.Stream.Threads
import AirspyHF.Stream.Wakeup
import AirspyHF.Stream.Drain
import AirspyHF.Stream.Refinement
import AirspyHF.Stream.Termination
import AirspyHF.Stream.Exclusion
import AirspyHF.Dsp.Fft
import AirspyHF.Dsp.Reversal
import AirspyHF.Dsp.Ramp
import AirspyHF.Device.Basic
import AirspyHF.Device.Scan
import AirspyHF.Dsp.Balancer
import AirspyHF.Dsp.Epoch
import AirspyHF.Dsp.Filling
import AirspyHF.Dsp.Mirrored
import AirspyHF.Dsp.Checked
import AirspyHF.Dsp.Faults
import AirspyHF.Dsp.Estimates
import AirspyHF.Dsp.Averaging
import AirspyHF.Dsp.Offset
import AirspyHF.Dsp.Tone
import AirspyHF.Dsp.Rest
import AirspyHF.Dsp.Gate
import AirspyHF.Dsp.Oscillator
import AirspyHF.Dsp.Mixing
import AirspyHF.Device.Tuning
import AirspyHF.Device.Samplerate
import AirspyHF.Device.Flash
import AirspyHF.Device.Config
import AirspyHF.Device.Tables
import AirspyHF.Device.Attenuator
import AirspyHF.Device.Names
import AirspyHF.Device.Streaming
import AirspyHF.Device.Open
import AirspyHF.Device.Opening
import AirspyHF.Device.Uninterrupted
import AirspyHF.Device.Calls
import AirspyHF.Device.Rates
import AirspyHF.Contract.Completion
import AirspyHF.Contract.Delta
import AirspyHF.Contract.Shift
import AirspyHF.Contract.Rate
import AirspyHF.Contract.Tables
import AirspyHF.Contract.Floor
import AirspyHF.Contract.Order
import AirspyHF.Contract.Start
import AirspyHF.Contract.Balance
import AirspyHF.Contract.Lifetime
import AirspyHF.Contract.Listing
import AirspyHF.Contract.Page
import AirspyHF.Contract.Names
import AirspyHF.Contract.Room
import AirspyHF.Contract.Tuning
import AirspyHF.Tools.Arguments
import AirspyHF.Tools.Decimal
import AirspyHF.Tools.Rx
import AirspyHF.Tools.CommandLine
import AirspyHF.Tools.Settings
import AirspyHF.Tools.Gpio
import AirspyHF.Tools.Recording
