import AirspyHF.Machine.Independent
import AirspyHF.Tools.Arguments
import AirspyHF.Tools.CommandLine
import AirspyHF.Tools.Recording

/-!
# The options of `airspyhf_rx`

The program reads its options in a loop over `getopt`.  Every option sets variables of its own, and
whether an option is refused depends on nothing but the option.

* `independent_option` : options of different letters may be given in either order.
* `optionLoop_congr` : so the settings depend only on the options of every letter, in their order.
-/

namespace AirspyHF

namespace Rx

open Getopt (Text Answer)

/-- `"r:ws:f:a:n:g:l:t:m:dhz"`. -/
def optstring : Text :=
  [114, 58, 119, 115, 58, 102, 58, 97, 58, 110, 58, 103, 58, 108, 58, 116, 58, 109, 58, 100, 104,
    122]

/-- The variables that the options set. -/
structure ReceiveOptions where
  options : Options := {}
  receive : Bool := false
  path : Option Text := none
  /-- `receive_wav`. -/
  receiveWav : Bool := false
  /-- `serial_number_val`, if `serial_number` is set. -/
  serialNumber : Option UInt64 := none
  verbose : Bool := false

/-- What an option asks for. -/
inductive Choice where
  /-- `-r` with a path. -/
  | receive (path : Text)
  /-- `-w`. -/
  | receiveWav
  /-- `-s` with a serial number. -/
  | serialNumber (val : UInt64)
  /-- `-f` with a frequency, if `sscanf` reads one. -/
  | freq (freqHz : Option UInt32)
  /-- `-a` with a sample rate. -/
  | sampleRate (val : UInt32)
  /-- `-n` with a number of samples. -/
  | limitNumSamples (samplesToXfer : UInt64)
  /-- `-g` with the text `off` or another. -/
  | hfAgc (off : Bool)
  /-- `-l` with the text `high` or another. -/
  | hfAgcThreshold (high : Bool)
  /-- `-t` with a value, if `sscanf` reads one. -/
  | hfAtt (val : Option UInt8)
  /-- `-m` with the text `on` or another. -/
  | hfLna (on : Bool)
  /-- `-d`. -/
  | verbose
  /-- `-z`. -/
  | doNotUseManualCommands

/-- The letter of an option. -/
def Choice.code : Choice → ℤ
  | .receive _ => 114
  | .receiveWav => 119
  | .serialNumber _ => 115
  | .freq _ => 102
  | .sampleRate _ => 97
  | .limitNumSamples _ => 110
  | .hfAgc _ => 103
  | .hfAgcThreshold _ => 108
  | .hfAtt _ => 116
  | .hfLna _ => 109
  | .verbose => 100
  | .doNotUseManualCommands => 122

/-- What `sscanf` reads of a text, if it reads something. -/
structure Sscanf where
  /-- `"%f"` of a frequency in MHz, in Hz. -/
  mhz : Text → Option UInt32
  /-- `"%d"`, into an `unsigned`. -/
  int : Text → Option UInt32

/-- The option that an answer of `getopt` stands for, or nothing if the program shows its usage
instead. -/
def choice (sscanf : Sscanf) (a : Answer) : Option Choice :=
  match a.optarg with
  | some optarg =>
    if a.code = 114 then some (.receive optarg)
    else if a.code = 115 then (parseU64 optarg).map .serialNumber
    else if a.code = 102 then some (.freq (sscanf.mhz optarg))
    else if a.code = 97 then (parseU32 optarg).map .sampleRate
    else if a.code = 110 then (parseU64 optarg).map .limitNumSamples
    else if a.code = 103 then some (.hfAgc (optarg = [111, 102, 102]))
    else if a.code = 108 then some (.hfAgcThreshold (optarg = [104, 105, 103, 104]))
    else if a.code = 116 then
      match sscanf.int optarg with
      | some val => if val ≤ 8 then some (.hfAtt (some val.toUInt8)) else none
      | none => some (.hfAtt none)
    else if a.code = 109 then some (.hfLna (optarg = [111, 110]))
    else none
  | none =>
    if a.code = 119 then some .receiveWav
    else if a.code = 100 then some .verbose
    else if a.code = 122 then some .doNotUseManualCommands
    else none

/-- The assignments of an option. -/
def ReceiveOptions.choose (st : ReceiveOptions) : Choice → ReceiveOptions
  | .receive path => { st with receive := true, path := some path }
  | .receiveWav => { st with receiveWav := true }
  | .serialNumber val => { st with serialNumber := some val }
  | .freq (some freqHz) => { st with options.freqHz := some freqHz }
  | .freq none => st
  | .sampleRate val => { st with options.sampleRateVal := val }
  | .limitNumSamples samplesToXfer => { st with options.samplesToXfer := some samplesToXfer }
  | .hfAgc off => if off then { st with options.hfAgc := false } else st
  | .hfAgcThreshold high => if high then { st with options.hfAgcThreshold := true } else st
  | .hfAtt (some val) => { st with options.hfAttVal := val }
  | .hfAtt none => st
  | .hfLna on => if on then { st with options.hfLna := true } else st
  | .verbose => { st with verbose := true }
  | .doNotUseManualCommands => { st with options.doNotUseManualCommands := true }

/-- The `switch` of the loop, as a machine over the answers. -/
def option (sscanf : Sscanf) : Machine ReceiveOptions Answer :=
  ⟨fun st a => (choice sscanf a).map st.choose⟩

/-- The loop over `getopt`: the settings after it. -/
def optionLoop (sscanf : Sscanf) (posix : Bool) :
    ℕ → Getopt.Vars → List Text → ReceiveOptions → Option ReceiveOptions :=
  Getopt.optionLoop (option sscanf) posix optstring

variable {sscanf : Sscanf}

/-- What the command line of the program depends on beside its arguments. -/
def setting (posix : Bool) (program : Text) : Getopt.Setting := ⟨optstring, posix, true, program⟩

theorem plain_optstring : Getopt.Plain optstring := by decide

/-! ### The order of the options -/

/-- The option of an answer has its letter. -/
theorem code_choice {a : Answer} {x : Choice} (h : choice sscanf a = some x) :
    x.code = a.code := by
  unfold choice at h
  split at h
  · split_ifs at h with hr hs hf ha hn hg hl ht hm
    · exact Option.some.inj h ▸ hr.symm
    · obtain ⟨val, -, rfl⟩ := Option.map_eq_some_iff.1 h
      exact hs.symm
    · exact Option.some.inj h ▸ hf.symm
    · obtain ⟨val, -, rfl⟩ := Option.map_eq_some_iff.1 h
      exact ha.symm
    · obtain ⟨val, -, rfl⟩ := Option.map_eq_some_iff.1 h
      exact hn.symm
    · exact Option.some.inj h ▸ hg.symm
    · exact Option.some.inj h ▸ hl.symm
    · split at h
      · split_ifs at h
        exact Option.some.inj h ▸ ht.symm
      · exact Option.some.inj h ▸ ht.symm
    · exact Option.some.inj h ▸ hm.symm
  · split_ifs at h with hw hd hz
    · exact Option.some.inj h ▸ hw.symm
    · exact Option.some.inj h ▸ hd.symm
    · exact Option.some.inj h ▸ hz.symm

theorem choose_comm (st : ReceiveOptions) {x y : Choice} (h : x.code ≠ y.code) :
    (st.choose x).choose y = (st.choose y).choose x := by
  rcases x with _ | _ | _ | (_ | _) | _ | _ | (_ | _) | (_ | _) | (_ | _) | (_ | _) | _ | _ <;>
  rcases y with _ | _ | _ | (_ | _) | _ | _ | (_ | _) | (_ | _) | (_ | _) | (_ | _) | _ | _ <;>
  first
  | rfl
  | exact absurd rfl h

/-- **Options of different letters** may be given in either order. -/
theorem independent_option (sscanf : Sscanf) :
    (option sscanf).Independent Getopt.Answer.code := by
  intro st a b hne
  simp only [Machine.run, option]
  cases ha : choice sscanf a with
  | none => cases choice sscanf b <;> rfl
  | some x =>
    cases hb : choice sscanf b with
    | none => rfl
    | some y =>
      have hcodes : x.code ≠ y.code := by
        rwa [code_choice ha, code_choice hb]
      exact congrArg some (choose_comm st hcodes)

/-- **The settings** depend only on the options of every letter, in their order. -/
theorem optionLoop_congr (sscanf : Sscanf) {posix posix' : Bool}
    {program program' : Text} {args args' : List Text} {fuel fuel' : ℕ}
    (hfuel : (args.map List.length).sum < fuel) (hfuel' : (args'.map List.length).sum < fuel')
    (h : ∀ k,
      Machine.ofKey Getopt.Answer.code k (Getopt.parse (setting posix program) args []).answers =
        Machine.ofKey Getopt.Answer.code k
          (Getopt.parse (setting posix' program') args' []).answers) (st : ReceiveOptions) :
    optionLoop sscanf posix fuel {} (program :: args) st =
      optionLoop sscanf posix' fuel' {} (program' :: args') st := by
  rw [optionLoop, optionLoop, Getopt.optionLoop_eq plain_optstring posix program args hfuel,
    Getopt.optionLoop_eq plain_optstring posix' program' args' hfuel']
  exact (independent_option sscanf).run_eq h st

/-- `-w x -d` and `-dw`. -/
theorem optionLoop_wd :
    optionLoop ⟨fun _ => none, fun _ => none⟩ false 10 {}
        [[120], [45, 119], [120], [45, 100]] {} =
      optionLoop ⟨fun _ => none, fun _ => none⟩ false 10 {} [[120], [45, 100, 119]] {} := by
  have hw : Getopt.entry (setting false [120]).optstring 119 = some .no := by decide
  have hd : Getopt.entry (setting false [120]).optstring 100 = some .no := by decide
  refine optionLoop_congr _ (by decide) (by decide) ?_ {}
  intro k
  rw [Getopt.parse_element (by decide) (by decide), Getopt.parse_element (by decide) (by decide)]
  simp only [List.tail_cons]
  rw [Getopt.parse_no _ _ hw, Getopt.parse_operand (by decide), if_neg (by decide),
    Getopt.parse_element (by decide) (by decide)]
  simp only [List.tail_cons]
  rw [Getopt.parse_no _ _ hd, Getopt.parse_no _ _ hd, Getopt.parse_no _ _ hw, Getopt.parse]
  have hcodes : Getopt.charCode 119 ≠ Getopt.charCode 100 := by decide
  simp only [Machine.ofKey, List.filter_cons, decide_eq_true_eq]
  split_ifs with hkw hkd
  · exact absurd (hkw.trans hkd.symm) hcodes
  all_goals rfl

end Rx

end AirspyHF
