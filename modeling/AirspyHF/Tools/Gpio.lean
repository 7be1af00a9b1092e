import AirspyHF.Device.Opening
import AirspyHF.Tools.CommandLine

/-!
# The outputs that `airspyhf_gpio` sets

The tool reads from its command line what its four outputs shall be, opens a receiver, and sets them
one after the other.  Without a serial number it opens every receiver that is listed, and has one
variable for all of them.

* `main_outputs` : the last option for an output decides, and the outputs are set in order, until a
  request fails.
* `main_keeps` : of the receivers that are opened, only the last is closed.
-/

namespace AirspyHF

/-- The request that sets an output. -/
def userOutputRequest (pin : Fin 4) (high : Bool) : Request :=
  ⟨.setUserOutput, UInt16.ofNat pin, if high then 1 else 0, [], 0⟩

/-- `airspyhf_set_user_output`. -/
def setUserOutput (pin : Fin 4) (high : Bool) (w : World) : Status × World :=
  (if (w.exchange (userOutputRequest pin high)).result < 0 then .error else .success,
    w.issue (userOutputRequest pin high))

namespace Gpio

open Getopt (Text Answer)

/-! ### The options -/

/-- `"s:0:1:2:3:h?"`. -/
def optstring : Text := [115, 58, 48, 58, 49, 58, 50, 58, 51, 58, 104, 63]

/-- The variables that the options set. -/
structure OutputOptions where
  /-- `gpio[n].state` is high. -/
  high : Fin 4 → Bool := fun _ => false
  /-- `sn`, if `serial_number` is set. -/
  serialNumber : Option UInt64 := none

/-- What an option asks for. -/
inductive Choice where
  /-- `-0` to `-3` with the text `on` or `off`. -/
  | output (pin : Fin 4) (high : Bool)
  /-- `-s` with a serial number. -/
  | serialNumber (sn : UInt64)

/-- The option that an answer of `getopt` stands for, or nothing if the tool shows its usage
instead.  What `sscanf` reads with `"0x%llx"` is `scanSerial`. -/
def choice (scanSerial : Text → Option UInt64) (a : Answer) : Option Choice :=
  a.optarg.bind fun optarg =>
    if hpin : 48 ≤ a.code ∧ a.code < 52 then
      if optarg = [111, 110] then some (.output ⟨(a.code - 48).toNat, by omega⟩ true)
      else if optarg = [111, 102, 102] then some (.output ⟨(a.code - 48).toNat, by omega⟩ false)
      else none
    else if a.code = 115 then (scanSerial optarg).map .serialNumber
    else none

/-- The assignment of an option. -/
def OutputOptions.choose (st : OutputOptions) : Choice → OutputOptions
  | .output pin high => { st with high := Function.update st.high pin high }
  | .serialNumber sn => { st with serialNumber := some sn }

/-- The `switch` of the loop, as a machine over the answers. -/
def option (scanSerial : Text → Option UInt64) : Machine OutputOptions Answer :=
  ⟨fun st a => (choice scanSerial a).map st.choose⟩

/-! ### The receivers -/

/-- What the calls of the tool meet. -/
structure Surroundings where
  /-- The host of the call that counts the receivers. -/
  counting : Host
  /-- The host of the call that lists them. -/
  listing : Host
  /-- There is memory for the serial numbers. -/
  serials : Bool
  /-- The host of the `n`-th `airspyhf_open_sn`, and of what is done with the receiver. -/
  opening : ℕ → Host
  /-- What event handling and the threads do while a receiver is closed. -/
  others : Stream → Stream

/-- `dev`, with its host. -/
abbrev Dev := Option (Opened × Host)

/-- The loop that opens the receivers, from the `n`-th on.  It stops where one cannot be opened. -/
def openEach (opening : ℕ → Host) :
    List UInt64 → ℕ → Dev → Process → Option (Status × Dev × Process)
  | [], _, dev, p => some (.success, dev, p)
  | ps :: serials, n, _, p =>
    ((opening n).openSn ps p).bind fun (status, o, p) =>
      let dev := o.map fun o => (o, opening n)
      if status = .success then openEach opening serials (n + 1) dev p else some (status, dev, p)

/-- The tool opens what it was asked for.  There is no `ndev` if the receivers could not be
counted. -/
def openReceivers (s : Surroundings) (serialNumber : Option UInt64) (ndev : Option ℕ)
    (p : Process) : Option (Status × Dev × Process) :=
  match serialNumber, ndev with
  | some sn, _ => openEach s.opening [sn] 0 none p
  -- -1 is the largest number of receivers, and the size of no array
  | none, none => none
  | none, some ndev =>
    if s.serials then
      (s.listing.listDevices (some ndev) p).bind fun (status, serials, p) =>
        if status = .success ∧ serials ≠ [] then
          openEach s.opening (serials ++ List.replicate (ndev - serials.length) 0) 0 none p
        else some (.success, none, p)
    else some (.success, none, p)

/-- The loop that sets the outputs. -/
def setOutputs (high : Fin 4 → Bool) : List (Fin 4) → World → Status × World
  | [], w => (.success, w)
  | n :: pins, w =>
    let (status, w) := setUserOutput n (high n) w
    if status = .success then setOutputs high pins w else (status, w)

/-- The end of the tool: the outputs are set if the receivers could be opened, and `dev` is
closed. -/
def finish (s : Surroundings) (high : Fin 4 → Bool) (status : Status) (p : Process) :
    Dev → Option (Status × Process)
  | some (o, h) =>
    if status = .success then
      let (status, w) := setOutputs high (List.finRange 4) ⟨o.device, p.log, h.bus⟩
      (o.close h.bus s.others ⟨p.held, w.log⟩).map fun r => (status, r.2)
    else (o.close h.bus s.others p).map fun r => (status, r.2)
  -- nothing is closed, but an output would be set through a null pointer
  | none => if status = .success then none else some (status, p)

/-- `main` after its options. -/
def serve (s : Surroundings) (st : OutputOptions) (p : Process) : Option (Status × Process) :=
  (s.counting.listDevices none p).bind fun (status, serials, p) =>
    if status = .success ∧ serials = [] then some (.error, p)
    else
      let ndev := if status = .success then some serials.length else none
      (openReceivers s st.serialNumber ndev p).bind fun (status, dev, p) =>
        finish s st.high status p dev

/-- `main`, which exits with success or with a failure. -/
def main (scanSerial : Text → Option UInt64) (posix : Bool) (fuel : ℕ) (s : Surroundings)
    (argv : List Text) (p : Process) : Option (Status × Process) :=
  match Getopt.optionLoop (option scanSerial) posix optstring fuel {} argv {} with
  | none => some (.error, p)
  | some st => serve s st p

/-! ### The last option decides -/

/-- What the option makes of an output. -/
def Choice.output? (pin : Fin 4) : Choice → Option Bool
  | .output n high => if n = pin then some high else none
  | .serialNumber _ => none

/-- The serial number of the option. -/
def Choice.serial? : Choice → Option UInt64
  | .output .. => none
  | .serialNumber sn => some sn

variable (scanSerial : Text → Option UInt64)

/-- What the options ask of an output, in order. -/
def outputsGiven (pin : Fin 4) (answers : List Answer) : List Bool :=
  (answers.filterMap (choice scanSerial)).filterMap (·.output? pin)

/-- The serial numbers that are given, in order. -/
def serialsGiven (answers : List Answer) : List UInt64 :=
  (answers.filterMap (choice scanSerial)).filterMap (·.serial?)

/-- The output is high after the options. -/
def last (pin : Fin 4) (answers : List Answer) : Bool :=
  (outputsGiven scanSerial pin answers).getLast?.getD false

variable {scanSerial}

/-- **The options**: the last one for a variable decides. -/
theorem run_option {st st' : OutputOptions} {answers : List Answer}
    (h : (option scanSerial).run st answers = some st') :
    (∀ pin, st'.high pin = (outputsGiven scanSerial pin answers).getLast?.getD (st.high pin)) ∧
      st'.serialNumber = (serialsGiven scanSerial answers).getLast?.or st.serialNumber := by
  induction answers generalizing st with
  | nil =>
    obtain rfl := Option.some.inj h
    exact ⟨fun _ => rfl, rfl⟩
  | cons a answers ih =>
    obtain ⟨st₁, ha, hrest⟩ := Machine.run_cons.1 h
    obtain ⟨c, hc, rfl⟩ := Option.map_eq_some_iff.1 ha
    obtain ⟨hhigh, hserial⟩ := ih hrest
    simp only [outputsGiven, serialsGiven, List.filterMap_cons_some hc]
    cases c with
    | output n high =>
      refine ⟨fun pin => (hhigh pin).trans ?_, hserial⟩
      by_cases hn : n = pin
      · subst hn
        simp [outputsGiven, Choice.output?, OutputOptions.choose, List.getLast?_cons]
      · simp [outputsGiven, Choice.output?, OutputOptions.choose, hn, Ne.symm hn]
    | serialNumber sn =>
      refine ⟨hhigh, hserial.trans ?_⟩
      rw [List.filterMap_cons_some (show (Choice.serialNumber sn).serial? = some sn from rfl),
        List.getLast?_cons, Option.some_or]
      change (serialsGiven scanSerial answers).getLast?.or (some sn) = _
      rw [Option.or_some]
      rfl

/-! ### The outputs are set in order -/

/-- The requests that set an output, the most recent first. -/
def outputs (log : List Exchange) : List Exchange :=
  log.filter fun e => e.request.command = .setUserOutput

theorem outputs_append (es log : List Exchange) : outputs (es ++ log) = outputs es ++ outputs log :=
  List.filter_append ..

theorem outputs_of_ne {es : List Exchange} (h : ∀ e ∈ es, e.request.command ≠ .setUserOutput) :
    outputs es = [] := by
  rw [outputs, List.filter_eq_nil_iff]
  intro e he
  simpa using h e he

/-- Opening a receiver sets no output. -/
theorem openSn_outputs {h : Host} {sn : UInt64} {p p' : Process} {status : Status}
    {o : Option Opened} (hr : h.openSn sn p = some (status, o, p')) :
    outputs p'.log = outputs p.log := by
  cases Host.openInit_run hr with
  | unfound => rfl
  | refused hf hg hlog =>
    obtain ⟨es, rfl, hes⟩ := hlog
    rw [outputs_append, outputs_of_ne, List.nil_append]
    intro e he
    rcases hes e he with hc | hc | hc <;> rw [hc] <;> decide
  | opened hf hg ho =>
    obtain ⟨es, es₀, hlog, hes, hes₀⟩ := ho.log_eq
    rw [hlog, ← List.cons_append, ← List.append_assoc, outputs_append, outputs_of_ne,
      List.nil_append]
    intro e he
    rcases List.mem_append.1 he with he | he
    · rcases hes e he with hc | hc <;> rw [hc] <;> decide
    rcases List.mem_cons.1 he with rfl | he
    · exact (by decide : configReadRequest.command ≠ .setUserOutput)
    · rcases hes₀ e he with hc | hc | hc <;> rw [hc] <;> decide

/-- The requests are issued in order, until one fails; `es` are those that are issued, the most
recent first.  A failure for another reason comes before them. -/
structure Attempt (requests : List Request) (status : Status) (es : List Exchange) : Prop where
  order : es.reverse.map Exchange.request <+: requests
  before : ∀ e ∈ es.tail, e.Complete
  success : status = .success ↔ es.length = requests.length ∧ ∀ e ∈ es, e.Complete
  failure : status ≠ .success → ∀ e ∈ es.head?, ¬ e.Complete

theorem setUserOutput_success {pin : Fin 4} {high : Bool} {w : World} :
    (setUserOutput pin high w).1 = .success ↔
      (w.exchange (userOutputRequest pin high)).Complete := by
  rw [Exchange.complete_iff_of_length_zero rfl, ← Exchange.result_neg_iff, setUserOutput]
  split_ifs with hneg
  · exact iff_of_false (by decide) (not_not.2 hneg)
  · exact iff_of_true rfl hneg

theorem setOutputs_run (high : Fin 4 → Bool) (pins : List (Fin 4)) (w : World) : ∃ es,
    (setOutputs high pins w).2.log = es ++ w.log ∧ (es = [] → pins = []) ∧
      Attempt (pins.map fun pin => userOutputRequest pin (high pin))
        (setOutputs high pins w).1 es := by
  induction pins generalizing w with
  | nil =>
    exact ⟨[], rfl, fun _ => rfl, List.prefix_rfl, List.forall_mem_nil _, by simp [setOutputs],
      fun _ e he => absurd he (Option.not_mem_none e)⟩
  | cons n pins ih =>
    have hfirst : (setUserOutput n (high n) w).1 = .success ↔ _ := setUserOutput_success
    rw [setOutputs]
    dsimp only
    by_cases hs : (setUserOutput n (high n) w).1 = .success
    · rw [if_pos hs]
      obtain ⟨es, hlog, hnil, hes⟩ := ih (setUserOutput n (high n) w).2
      refine ⟨es ++ [w.exchange (userOutputRequest n (high n))], ?_, by simp, ?_, ?_, ?_, ?_⟩
      · rw [hlog, List.append_assoc]
        rfl
      · rw [List.reverse_append, List.map_append]
        exact (List.prefix_append_right_inj _).2 hes.order
      · intro e he
        rcases es with _ | ⟨e', es⟩
        · exact absurd he List.not_mem_nil
        rcases List.mem_append.1 he with he | he
        · exact hes.before e he
        · exact List.mem_singleton.1 he ▸ hfirst.1 hs
      · rw [hes.success, List.length_append, List.length_singleton, List.map_cons, List.length_cons,
          Nat.add_right_cancel_iff, List.forall_mem_append, List.forall_mem_singleton]
        exact and_congr_right fun _ => (and_iff_left (hfirst.1 hs)).symm
      · intro hfailed
        rcases es with _ | ⟨e', es⟩
        · -- nothing was left to be set
          obtain rfl := hnil rfl
          exact absurd (hes.success.2 ⟨rfl, List.forall_mem_nil _⟩) hfailed
        · exact hes.failure hfailed
    · rw [if_neg hs]
      refine ⟨[w.exchange (userOutputRequest n (high n))], rfl, nofun, ?_, List.forall_mem_nil _,
        ?_, ?_⟩
      · exact (List.prefix_append_right_inj [_]).2 List.nil_prefix
      · exact iff_of_false hs fun hall => hs (hfirst.2 (List.forall_mem_singleton.1 hall.2))
      · rintro - e ⟨⟩ hcomplete
        exact hs (hfirst.2 hcomplete)

/-- What the receivers hold. -/
def resources (os : List Opened) : Multiset Resource :=
  (os.map fun o => (o.resources : Multiset Resource)).sum

/-- The receivers with the serial numbers are opened in this order, from the `n`-th call on. -/
inductive OpensEach (opening : ℕ → Host) : ℕ → List UInt64 → List Opened → Process → Process → Prop
  | nil {n p} : OpensEach opening n [] [] p p
  | cons {n ps serials o os p p₁ p'} (h : (opening n).openSn ps p = some (.success, some o, p₁))
      (hrest : OpensEach opening (n + 1) serials os p₁ p') :
      OpensEach opening n (ps :: serials) (o :: os) p p'

namespace OpensEach

variable {opening : ℕ → Host} {n : ℕ} {serials : List UInt64} {os : List Opened} {p p' : Process}

theorem length_eq (h : OpensEach opening n serials os p p') : os.length = serials.length := by
  induction h with
  | nil => rfl
  | cons h hrest ih => exact congrArg (· + 1) ih

theorem held (h : OpensEach opening n serials os p p') : p'.held = resources os + p.held := by
  induction h with
  | nil => exact (Multiset.zero_add _).symm
  | cons h hrest ih =>
    cases Host.openInit_run h with
    | opened hf hg ho =>
      rw [ih, ho.held]
      simp only [resources, List.map_cons, List.sum_cons]
      abel

theorem usb (h : OpensEach opening n serials os p p') :
    ∀ o ∈ os, (o.resources.filter fun r => !r.isBlock) = [.handle o.handle, .context] := by
  induction h with
  | nil => exact List.forall_mem_nil _
  | cons h hrest ih =>
    cases Host.openInit_run h with
    | opened hf hg ho => exact List.forall_mem_cons.2 ⟨by rw [ho.usb, ho.handle], ih⟩

end OpensEach

theorem openEach_outputs {opening : ℕ → Host} {serials : List UInt64} {n : ℕ} {dev dev' : Dev}
    {p p' : Process} {status : Status}
    (h : openEach opening serials n dev p = some (status, dev', p')) :
    outputs p'.log = outputs p.log := by
  induction serials generalizing n dev p with
  | nil =>
    obtain ⟨rfl, rfl, rfl⟩ := by simpa [openEach] using h
    rfl
  | cons ps serials ih =>
    obtain ⟨⟨status', o', p₁⟩, hr, h⟩ := Option.bind_eq_some_iff.1 h
    dsimp only at h
    split_ifs at h
    · exact (ih h).trans (openSn_outputs hr)
    · obtain ⟨-, -, rfl⟩ := by simpa using h
      exact openSn_outputs hr

/-- **The receivers are opened** one after the other, and the variable has the last of them. -/
theorem openEach_run {opening : ℕ → Host} {serials : List UInt64} {n : ℕ} {dev dev' : Dev}
    {p p' : Process} (h : openEach opening serials n dev p = some (.success, dev', p')) :
    ∃ os, OpensEach opening n serials os p p' ∧
      dev' = (os.getLast?.map fun o => (o, opening (n + os.length - 1))).or dev := by
  induction serials generalizing n dev p with
  | nil =>
    obtain ⟨rfl, rfl⟩ := by simpa [openEach] using h
    exact ⟨[], .nil, rfl⟩
  | cons ps serials ih =>
    obtain ⟨⟨status', o', p₁⟩, hr, h⟩ := Option.bind_eq_some_iff.1 h
    cases Host.openInit_run hr with
    | unfound hf hs => simp [hs] at h
    | refused => simp at h
    | @opened i _ _ o _ hf hg ho =>
      obtain ⟨os, hos, hdev⟩ := ih h
      refine ⟨o :: os, .cons hr hos, ?_⟩
      have hindex : n + 1 + os.length - 1 = n + (os.length + 1) - 1 := by omega
      rw [hdev, List.length_cons, hindex]
      cases hlast : os.getLast? with
      | none =>
        obtain rfl := List.getLast?_eq_none_iff.1 hlast
        rfl
      | some o' =>
        rw [List.getLast?_cons, hlast]
        rfl

/-- The requests for the outputs, in order. -/
def requests (high : Fin 4 → Bool) : List Request :=
  (List.finRange 4).map fun pin => userOutputRequest pin (high pin)

theorem Attempt.nothing {high : Fin 4 → Bool} {status : Status} (hs : status ≠ .success) :
    Attempt (requests high) status [] where
  order := List.nil_prefix
  before := List.forall_mem_nil _
  success := iff_of_false hs fun h => absurd h.1 (by simp [requests])
  failure _ e he := absurd he (Option.not_mem_none e)

theorem Attempt.outputs_eq {high : Fin 4 → Bool} {status : Status} {es : List Exchange}
    (h : Attempt (requests high) status es) : outputs es = es := by
  rw [outputs, List.filter_eq_self]
  intro e he
  obtain ⟨pin, -, hpin⟩ :=
    List.mem_map.1 (h.order.subset (List.mem_map_of_mem (List.mem_reverse.2 he)))
  rw [← hpin]
  rfl

theorem close_outputs {o : Opened} {bus : ℕ → Reply} {others : Stream → Stream} {p p' : Process}
    {result : Status} (hc : o.close bus others p = some (result, p')) :
    outputs p'.log = outputs p.log := by
  obtain ⟨e, hlog, he⟩ := Opened.close_log hc
  rw [hlog, ← List.singleton_append, outputs_append, outputs_of_ne, List.nil_append]
  rw [List.forall_mem_singleton, he]
  decide

theorem finish_run {s : Surroundings} {high : Fin 4 → Bool} {status status' : Status}
    {p p' : Process} {dev : Dev} (h : finish s high status p dev = some (status', p')) :
    ∃ es, outputs p'.log = es ++ outputs p.log ∧ Attempt (requests high) status' es := by
  cases dev with
  | none =>
    obtain ⟨hs, heq⟩ := Option.ite_none_left_eq_some.1 h
    obtain ⟨rfl, rfl⟩ := Prod.mk.inj (Option.some.inj heq)
    exact ⟨[], rfl, .nothing hs⟩
  | some dev =>
    by_cases hs : status = .success
    · obtain ⟨es, hes, -, hattempt⟩ := setOutputs_run high (List.finRange 4)
        ⟨dev.1.device, p.log, dev.2.bus⟩
      rw [finish, if_pos hs] at h
      rcases hset : setOutputs high (List.finRange 4) ⟨dev.1.device, p.log, dev.2.bus⟩ with ⟨st, w⟩
      rw [hset] at h hes hattempt
      obtain ⟨⟨result, p₁⟩, hclose, heq⟩ := Option.map_eq_some_iff.1 h
      obtain ⟨rfl, rfl⟩ := Prod.mk.inj heq
      refine ⟨es, (close_outputs hclose).trans ?_, hattempt⟩
      rw [← Attempt.outputs_eq hattempt, ← outputs_append, ← hes]
    · rw [finish, if_neg hs] at h
      obtain ⟨⟨result, p₁⟩, hclose, heq⟩ := Option.map_eq_some_iff.1 h
      obtain ⟨rfl, rfl⟩ := Prod.mk.inj heq
      exact ⟨[], close_outputs hclose, .nothing hs⟩

/-- The tool succeeds only with a receiver, which it closes. -/
theorem finish_success {s : Surroundings} {high : Fin 4 → Bool} {status : Status} {p p' : Process}
    {dev : Dev} (h : finish s high status p dev = some (.success, p')) :
    status = .success ∧ ∃ o host log result, dev = some (o, host) ∧
      o.close host.bus s.others ⟨p.held, log⟩ = some (result, p') := by
  cases dev with
  | none =>
    obtain ⟨hs, heq⟩ := Option.ite_none_left_eq_some.1 h
    exact absurd (Prod.mk.inj (Option.some.inj heq)).1 hs
  | some dev =>
    by_cases hs : status = .success
    · rw [finish, if_pos hs] at h
      obtain ⟨⟨result, p₁⟩, hclose, heq⟩ := Option.map_eq_some_iff.1 h
      obtain ⟨-, rfl⟩ := Prod.mk.inj heq
      exact ⟨hs, dev.1, dev.2, _, result, rfl, hclose⟩
    · rw [finish, if_neg hs] at h
      obtain ⟨⟨result, p₁⟩, hclose, heq⟩ := Option.map_eq_some_iff.1 h
      exact absurd (Prod.mk.inj heq).1 hs

theorem listDevices_run {h : Host} {count : Option ℕ} {p p' : Process} {status : Status}
    {serials : List UInt64} (hl : h.listDevices count p = some (status, serials, p')) :
    p'.log = p.log ∧ (status = .success →
      serials = count.elim (h.serials h.devices 0) (h.serials h.devices 0).take ∧ p' = p) := by
  rw [Host.listDevices_eq] at hl
  split_ifs at hl
  · obtain ⟨rfl, rfl, rfl⟩ := by simpa using hl
    exact ⟨rfl, fun _ => ⟨rfl, rfl⟩⟩
  · obtain ⟨rfl, rfl, rfl⟩ := by simpa using hl
    exact ⟨rfl, nofun⟩
  · obtain ⟨rfl, rfl, rfl⟩ := by simpa using hl
    exact ⟨rfl, nofun⟩

theorem openReceivers_outputs {s : Surroundings} {serialNumber : Option UInt64} {ndev : Option ℕ}
    {p p' : Process} {status : Status} {dev : Dev}
    (h : openReceivers s serialNumber ndev p = some (status, dev, p')) :
    outputs p'.log = outputs p.log := by
  rcases serialNumber with _ | sn
  · rcases ndev with _ | ndev
    · exact absurd h (Option.some_ne_none _).symm
    rw [openReceivers] at h
    split_ifs at h
    · obtain ⟨⟨status', serials, p₁⟩, hlist, h⟩ := Option.bind_eq_some_iff.1 h
      rw [← (listDevices_run hlist).1]
      dsimp only at h
      split_ifs at h
      · exact openEach_outputs h
      · obtain ⟨-, -, rfl⟩ := by simpa using h
        rfl
    · obtain ⟨-, -, rfl⟩ := by simpa using h
      rfl
  · exact openEach_outputs h

/-- The serial numbers that the tool goes through without a serial number of its own: those that are
listed, and zeros up to the number of receivers that were counted. -/
def Surroundings.tried (s : Surroundings) : List UInt64 :=
  let ndev := (s.counting.serials s.counting.devices 0).length
  let serials := (s.listing.serials s.listing.devices 0).take ndev
  serials ++ List.replicate (ndev - serials.length) 0

theorem Surroundings.length_tried (s : Surroundings) :
    s.tried.length = (s.counting.serials s.counting.devices 0).length := by
  rw [tried, List.length_append, List.length_replicate]
  exact Nat.add_sub_cancel' (List.length_take_le _ _)

/-- Without a serial number as many receivers are opened as were counted, or none. -/
theorem openReceivers_run {s : Surroundings} {p p' : Process} {dev : Dev}
    (h : openReceivers s none (some (s.counting.serials s.counting.devices 0).length) p =
      some (.success, dev, p')) :
    dev = none ∨ ∃ os, OpensEach s.opening 0 s.tried os p p' ∧
      dev = os.getLast?.map fun o => (o, s.opening (os.length - 1)) := by
  rw [openReceivers] at h
  split_ifs at h
  · obtain ⟨⟨status, serials, p₁⟩, hlist, hopen⟩ := Option.bind_eq_some_iff.1 h
    dsimp only at hopen
    split_ifs at hopen with hlisted
    · obtain ⟨rfl, rfl⟩ := (listDevices_run hlist).2 hlisted.1
      obtain ⟨os, hos, hdev⟩ := openEach_run hopen
      rw [Nat.zero_add, Option.or_none] at hdev
      exact .inr ⟨os, hos, hdev⟩
    · obtain ⟨rfl, -⟩ := by simpa using hopen
      exact .inl rfl
  · obtain ⟨rfl, -⟩ := by simpa using h
    exact .inl rfl

section Main

variable {scanSerial : Text → Option UInt64} {posix : Bool} {fuel : ℕ} {program : Text}
  {args : List Text} {s : Surroundings} {p p' : Process} {status : Status}

/-- What the command line of the tool depends on beside its arguments. -/
def setting (posix : Bool) (program : Text) : Getopt.Setting := ⟨optstring, posix, true, program⟩

/-- The tool shows its usage, or goes on with what the last options ask for. -/
theorem main_cases (hfuel : (args.map List.length).sum < fuel)
    (h : main scanSerial posix fuel s (program :: args) p = some (status, p')) :
    (status = .error ∧ p' = p) ∨ ∃ st : OutputOptions, serve s st p = some (status, p') ∧
      (st.high = fun pin => last scanSerial pin
        (Getopt.parse (setting posix program) args []).answers) ∧
      st.serialNumber = (serialsGiven scanSerial
        (Getopt.parse (setting posix program) args []).answers).getLast? := by
  rw [main, Getopt.optionLoop_eq (by decide) posix program args hfuel] at h
  rcases hrun : (option scanSerial).run {} (Getopt.parse (setting posix program) args []).answers
    with _ | st
  · simp only [setting] at hrun
    rw [hrun] at h
    obtain ⟨rfl, rfl⟩ := Prod.mk.inj (Option.some.inj h)
    exact .inl ⟨rfl, rfl⟩
  · obtain ⟨hhigh, hserial⟩ := run_option hrun
    simp only [setting] at hrun
    rw [hrun] at h
    exact .inr ⟨st, h, funext hhigh, hserial.trans Option.or_none⟩

/-- The text of the `k`-th receiver. -/
def serialText (k : UInt8) : List UInt8 :=
  strPrefixSerialAirspyhf ++ List.replicate 15 48 ++ [48 + k]

/-- Two receivers that do what they are asked to. -/
def twoReceivers : Surroundings :=
  let h : Host := .obliging [.receiver (serialText 1), .receiver (serialText 2)] (fun _ => true)
    fun _ => .empty
  ⟨h, h, true, fun _ => h, id⟩

theorem main_twoReceivers : ∃ p', main (fun _ => none) false 10 twoReceivers
    [[120], [45, 49], [111, 110]] ⟨0, []⟩ = some (.success, p') := by
  have hstatus : (main (fun _ => none) false 10 twoReceivers [[120], [45, 49], [111, 110]]
      ⟨0, []⟩).map Prod.fst = some .success := by
    decide +kernel
  obtain ⟨⟨status, p'⟩, hmain, hs⟩ := Option.map_eq_some_iff.1 hstatus
  obtain rfl : status = .success := hs
  exact ⟨p', hmain⟩

/-- **The outputs**: for every output the last option decides, and without an option it is low.  The
outputs are set in order until a request fails, by a tool that succeeds if and only if they all are
set. -/
theorem main_outputs (hfuel : (args.map List.length).sum < fuel)
    (h : main scanSerial posix fuel s (program :: args) p = some (status, p')) :
    ∃ es, outputs p'.log = es ++ outputs p.log ∧
      Attempt (requests fun pin => last scanSerial pin
        (Getopt.parse (setting posix program) args []).answers) status es := by
  obtain ⟨rfl, rfl⟩ | ⟨st, hserve, hhigh, -⟩ := main_cases hfuel h
  · exact ⟨[], rfl, .nothing (by decide)⟩
  obtain ⟨⟨status₁, serials, p₁⟩, hlist, hrest⟩ := Option.bind_eq_some_iff.1 hserve
  rw [← (listDevices_run hlist).1]
  dsimp only at hrest
  split_ifs at hrest
  · obtain ⟨rfl, rfl⟩ := Prod.mk.inj (Option.some.inj hrest)
    exact ⟨[], rfl, .nothing (by decide)⟩
  all_goals
    obtain ⟨⟨status₂, dev, p₂⟩, hopen, hfinish⟩ := Option.bind_eq_some_iff.1 hrest
    rw [← openReceivers_outputs hopen, ← hhigh]
    exact finish_run hfinish

theorem main_outputs_twoReceivers : ∃ p' es, main (fun _ => none) false 10 twoReceivers
    [[120], [45, 49], [111, 110]] ⟨0, []⟩ = some (.success, p') ∧
      outputs p'.log = es ++ outputs [] ∧
      Attempt (requests fun pin => last (fun _ => none) pin
        (Getopt.parse (setting false [120]) [[45, 49], [111, 110]] []).answers) .success es := by
  obtain ⟨p', hmain⟩ := main_twoReceivers
  have hfuel : (([[45, 49], [111, 110]] : List Text).map List.length).sum < 10 := by decide
  obtain ⟨es, hes, hattempt⟩ := main_outputs hfuel hmain
  exact ⟨p', es, hmain, hes, hattempt⟩

/-- **The receivers that are kept**: a tool that is given no serial number and succeeds has opened
as many receivers as it has counted, in the order of the list, and has closed the last of them only.
What the others hold, each a handle and a context among it, is still held then. -/
theorem main_keeps (hfuel : (args.map List.length).sum < fuel)
    (hserial : serialsGiven scanSerial (Getopt.parse (setting posix program) args []).answers = [])
    (h : main scanSerial posix fuel s (program :: args) p = some (.success, p')) :
    ∃ os o p₁ log result, OpensEach s.opening 0 s.tried (os ++ [o]) p p₁ ∧
      os.length + 1 = (s.counting.serials s.counting.devices 0).length ∧
      o.close (s.opening os.length).bus s.others ⟨p₁.held, log⟩ = some (result, p') ∧
      p'.held = resources os + p.held ∧
      ∀ o ∈ os, (o.resources.filter fun r => !r.isBlock) = [.handle o.handle, .context] := by
  obtain ⟨herror, -⟩ | ⟨st, hserve, -, hst⟩ := main_cases hfuel h
  · exact absurd herror (by decide)
  rw [hserial, List.getLast?_nil] at hst
  obtain ⟨⟨status₁, serials, p₁⟩, hlist, hrest⟩ := Option.bind_eq_some_iff.1 hserve
  dsimp only at hrest
  split_ifs at hrest with hnone hlisted
  · exact absurd (Prod.mk.inj (Option.some.inj hrest)).1 (by decide)
  · obtain ⟨rfl, hlisting⟩ := (listDevices_run hlist).2 hlisted
    subst p₁
    obtain ⟨⟨status₂, dev, p₂⟩, hopen, hfinish⟩ := Option.bind_eq_some_iff.1 hrest
    obtain ⟨rfl, o, host, log, result, rfl, hclose⟩ := finish_success hfinish
    rw [hst] at hopen
    obtain hdev | ⟨os, hos, hdev⟩ := openReceivers_run hopen
    · exact absurd hdev (Option.some_ne_none _)
    obtain ⟨o', hlast, heq⟩ := Option.map_eq_some_iff.1 hdev.symm
    obtain ⟨rfl, rfl⟩ := Prod.mk.inj heq
    obtain ⟨os, rfl⟩ := List.getLast?_eq_some_iff.1 hlast
    have hlength := hos.length_eq.trans s.length_tried
    rw [List.length_append, List.length_singleton] at hlength hclose
    refine ⟨os, o', p₂, log, result, hos, hlength, hclose, ?_,
      fun o ho => hos.usb o (List.mem_append_left _ ho)⟩
    have hheld : p₂.held = ↑o'.resources + (resources os + p.held) := by
      rw [hos.held, resources, List.map_append, List.sum_append]
      simp only [resources, List.map_cons, List.map_nil, List.sum_singleton]
      abel
    rw [Opened.close_eq (p := ⟨p₂.held, log⟩) hheld] at hclose
    obtain ⟨-, rfl⟩ := Prod.mk.inj (Option.some.inj hclose)
    rfl
  · obtain ⟨⟨status₂, dev, p₂⟩, hopen, -⟩ := Option.bind_eq_some_iff.1 hrest
    rw [hst] at hopen
    exact absurd hopen (Option.some_ne_none _).symm

/-- Of two receivers the second is closed, and the first stays open. -/
theorem main_keeps_twoReceivers : ∃ p' o o' p₁ log result,
    main (fun _ => none) false 10 twoReceivers [[120], [45, 49], [111, 110]] ⟨0, []⟩ =
      some (.success, p') ∧
    OpensEach twoReceivers.opening 0 [1, 2] [o, o'] ⟨0, []⟩ p₁ ∧
    o'.close (twoReceivers.opening 1).bus id ⟨p₁.held, log⟩ = some (result, p') ∧
    p'.held = ↑o.resources := by
  obtain ⟨p', hmain⟩ := main_twoReceivers
  have hone : Getopt.entry (setting false [120]).optstring 49 = some .required := by decide
  have hserial : serialsGiven (fun _ => none)
      (Getopt.parse (setting false [120]) [[45, 49], [111, 110]] []).answers = [] := by
    rw [Getopt.parse_element (by decide) (by decide), List.tail_cons,
      Getopt.parse_argument [] hone, Getopt.parse]
    rfl
  have hfuel : (([[45, 49], [111, 110]] : List Text).map List.length).sum < 10 := by decide
  have htried : twoReceivers.tried = [1, 2] := by decide +kernel
  obtain ⟨os, o', p₁, log, result, hopens, hlength, hclose, hheld, -⟩ :=
    main_keeps hfuel hserial hmain
  rw [← Surroundings.length_tried, htried] at hlength
  obtain ⟨o, rfl⟩ := List.length_eq_one_iff.1 (Nat.succ.inj hlength)
  rw [htried] at hopens
  refine ⟨p', o, o', p₁, log, result, hmain, hopens, hclose, hheld.trans ?_⟩
  rw [Multiset.add_zero]
  exact Multiset.add_zero _

end Main

end Gpio

end AirspyHF
