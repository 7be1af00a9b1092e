import AirspyHF.C.Exchange
import Mathlib.Data.Int.Notation

/-!
# Scanning the command line

The tools read their options with the `getopt` that the repository brings along.  A call gives the
next option; the calls move the other arguments behind the options.

* `getopt` : one call, for the options of one character that `getopt` scans.
* `scan` : the calls that a tool makes, up to the first that returns `-1`.
* `parse` : what the options and the operands of a command line are.
-/

namespace AirspyHF

namespace Getopt

/-- The characters of a text, before the null character. -/
abbrev Text := List UInt8

/-- `ordering`: what becomes of an argument that is not an option. -/
inductive Ordering where
  | requireOrder
  | permute
  | returnInOrder
  deriving DecidableEq

/-- The variables of `getopt.c`. -/
structure Vars where
  optarg : Option Text := none
  optind : ℕ := 1
  /-- `__getopt_initialized`. -/
  initialized : Bool := false
  nextchar : Option Text := none
  opterr : Bool := true
  optopt : ℤ := 63
  ordering : Ordering := .requireOrder
  /-- Whether `posixly_correct` is not null. -/
  posixlyCorrect : Bool := false
  firstNonopt : ℕ := 0
  lastNonopt : ℕ := 0
  deriving DecidableEq

/-- What is written to `stderr`: `"%s: ... -- %c\n"`. -/
structure Message where
  /-- `argv[0]`. -/
  program : Option Text
  text : String
  option : UInt8
  deriving DecidableEq

/-- What a call returns, and the state after it. -/
structure Result where
  code : ℤ
  vars : Vars
  argv : List Text
  stderr : Option Message := none
  deriving DecidableEq

/-! ### The source -/

/-- The value of a `char` that becomes an `int`. -/
def charCode (c : UInt8) : ℤ := c.toInt8.toInt

/-- `my_index`: the text from the first place of a character on. -/
def myIndex : Text → UInt8 → Option Text
  | [], _ => none
  | c :: str, chr => if c = chr then some (c :: str) else myIndex str chr

/-- `--`. -/
def dashes : Text := [45, 45]

/-- `exchange`. -/
def exchange (v : Vars) (argv : List Text) : Option (Vars × List Text) :=
  (C.exchangeLoop (v.optind + 1) argv v.firstNonopt v.lastNonopt v.optind).map fun argv =>
    ({ v with
      firstNonopt := v.firstNonopt + (v.optind - v.lastNonopt)
      lastNonopt := v.optind }, argv)

/-- `_getopt_initialize`, with what the environment says about `POSIXLY_CORRECT`. -/
def getoptInitialize (posix : Bool) (optstring : Text) (v : Vars) : Text × Vars :=
  let v := { v with
    firstNonopt := v.optind
    lastNonopt := v.optind
    nextchar := none
    posixlyCorrect := posix }
  if optstring.head? = some 45 then (optstring.tail, { v with ordering := .returnInOrder })
  else if optstring.head? = some 43 then (optstring.tail, { v with ordering := .requireOrder })
  else if posix then (optstring, { v with ordering := .requireOrder })
  else (optstring, { v with ordering := .permute })

/-- `NONOPTION_P`, of an element. -/
def nonoption (arg : Text) : Bool := arg.head? ≠ some 45 ∨ arg.tail = []

/-- The options that were scanned after operands come first. -/
def gather (v : Vars) (argv : List Text) : Option (Vars × List Text) :=
  if v.firstNonopt ≠ v.lastNonopt ∧ v.lastNonopt ≠ v.optind then exchange v argv
  else if v.lastNonopt ≠ v.optind then some ({ v with firstNonopt := v.optind }, argv)
  else some (v, argv)

/-- What is done about the order, before the next element. -/
def reorder (v : Vars) (argv : List Text) : Option (Vars × List Text) :=
  if v.ordering = .permute then
    (gather v argv).map fun (v, argv) =>
      let optind := v.optind + ((argv.drop v.optind).takeWhile nonoption).length
      ({ v with optind := optind, lastNonopt := optind }, argv)
  else some (v, argv)

/-- The options come first, when `--` was the last of them. -/
def gatherDashes (v : Vars) (argv : List Text) : Option (Vars × List Text) :=
  if v.firstNonopt ≠ v.lastNonopt ∧ v.lastNonopt ≠ v.optind then exchange v argv
  else if v.firstNonopt = v.lastNonopt then some ({ v with firstNonopt := v.optind }, argv)
  else some (v, argv)

/-- The element `--` ends the options. -/
def skipDashes (v : Vars) (argv : List Text) : Option (Vars × List Text) :=
  if v.optind ≠ argv.length ∧ argv[v.optind]? = some dashes then
    (gatherDashes { v with optind := v.optind + 1 } argv).map fun (v, argv) =>
      ({ v with lastNonopt := argv.length, optind := argv.length }, argv)
  else some (v, argv)

/-- The scan enters the next element: a result, or the state in which that element is decoded. -/
def enter (v : Vars) (argv : List Text) : Option (Result ⊕ Vars × List Text) :=
  if v.optind = argv.length then
    let optind := if v.firstNonopt ≠ v.lastNonopt then v.firstNonopt else v.optind
    some (.inl ⟨-1, { v with optind := optind }, argv, none⟩)
  else
    (argv[v.optind]?).map fun arg =>
      if nonoption arg then
        if v.ordering = .requireOrder then .inl ⟨-1, v, argv, none⟩
        else .inl ⟨1, { v with optarg := some arg, optind := v.optind + 1 }, argv, none⟩
      else .inr ({ v with nextchar := some arg.tail }, argv)

/-- `getopt` advances to the next element. -/
def advance (v : Vars) (argv : List Text) : Option (Result ⊕ Vars × List Text) :=
  let v := { v with lastNonopt := min v.lastNonopt v.optind }
  let v := { v with firstNonopt := min v.firstNonopt v.optind }
  (reorder v argv).bind fun x => (skipDashes x.1 x.2).bind fun x => enter x.1 x.2

/-- The message about a character, unless the errors are not printed. -/
def complain (printErrors : Bool) (argv : List Text) (text : String) (c : UInt8) :
    Option Message :=
  if printErrors then some ⟨argv[0]?, text, c⟩ else none

/-- There is no argument for an option that requires one. -/
def missing (printErrors : Bool) (optstring : Text) (c : UInt8) (v : Vars) (argv : List Text) :
    Result :=
  ⟨if optstring.head? = some 58 then 58 else 63, { v with optopt := charCode c }, argv,
    complain printErrors argv "option requires an argument" c⟩

/-- `getopt` looks at the next character of the element.  Nothing, if it would walk through the
table of long options, which is null here. -/
def shortOption (printErrors : Bool) (optstring : Text) (v : Vars) (argv : List Text) :
    Option Result :=
  match v.nextchar with
  | some (c :: nextchar) =>
    let v := { v with
      nextchar := some nextchar
      optind := if nextchar = [] then v.optind + 1 else v.optind }
    match myIndex optstring c with
    | none =>
      some ⟨63, { v with optopt := charCode c }, argv, complain printErrors argv
        (if v.posixlyCorrect then "illegal option" else "invalid option") c⟩
    | some temp =>
      if c = 58 then
        some ⟨63, { v with optopt := charCode c }, argv, complain printErrors argv
          (if v.posixlyCorrect then "illegal option" else "invalid option") c⟩
      else if temp[0]? = some 87 ∧ temp[1]? = some 59 then
        if nextchar = [] ∧ v.optind = argv.length then
          some (missing printErrors optstring c v argv)
        else none
      else if temp[1]? = some 58 then
        if temp[2]? = some 58 then
          if nextchar ≠ [] then
            some ⟨charCode c, { v with
              optarg := some nextchar, optind := v.optind + 1, nextchar := none }, argv, none⟩
          else some ⟨charCode c, { v with optarg := none, nextchar := none }, argv, none⟩
        else if nextchar ≠ [] then
          some ⟨charCode c, { v with
            optarg := some nextchar, optind := v.optind + 1, nextchar := none }, argv, none⟩
        else if v.optind = argv.length then
          some (missing printErrors optstring c { v with nextchar := none } argv)
        else
          (argv[v.optind]?).map fun arg => ⟨charCode c, { v with
            optarg := some arg, optind := v.optind + 1, nextchar := none }, argv, none⟩
      else some ⟨charCode c, v, argv, none⟩
  | _ => none

/-- What the first call does: it sets `optind`, if the caller did not, and initializes the rest. -/
def start (posix : Bool) (optstring : Text) (v : Vars) : Text × Vars :=
  let (optstring, v) :=
    getoptInitialize posix optstring (if v.optind = 0 then { v with optind := 1 } else v)
  (optstring, { v with initialized := true })

/-- The next option, of the element that is decoded or of the next one. -/
def next (printErrors : Bool) (optstring : Text) (v : Vars) (argv : List Text) : Option Result :=
  if v.nextchar = none ∨ v.nextchar = some [] then
    (advance v argv).bind fun
      | .inl result => some result
      | .inr (v, argv) => shortOption printErrors optstring v argv
  else shortOption printErrors optstring v argv

/-- `getopt`. -/
def getopt (posix : Bool) (optstring : Text) (v : Vars) (argv : List Text) : Option Result :=
  let printErrors := v.opterr && optstring.head? ≠ some 58
  if argv.length < 1 then some ⟨-1, v, argv, none⟩
  else
    let v := { v with optarg := none }
    if v.optind = 0 ∨ v.initialized = false then
      next printErrors (start posix optstring v).1 (start posix optstring v).2 argv
    else next printErrors optstring v argv

/-! ### The calls of a tool -/

/-- What a tool sees of a call that gives it something. -/
structure Answer where
  code : ℤ
  optarg : Option Text
  stderr : Option Message
  deriving DecidableEq

/-- A tool calls `getopt` until it returns `-1`: the answers, and the state after the calls, or
nothing if that takes more than a number of calls. -/
def scan (posix : Bool) (optstring : Text) :
    ℕ → Vars → List Text → Option (List Answer × Vars × List Text)
  | 0, _, _ => none
  | fuel + 1, v, argv =>
    (getopt posix optstring v argv).bind fun r =>
      if r.code = -1 then some ([], r.vars, r.argv)
      else (scan posix optstring fuel r.vars r.argv).map fun rest =>
        (⟨r.code, r.vars.optarg, r.stderr⟩ :: rest.1, rest.2)

/-! ### What a command line means -/

/-- Whether an option has an argument. -/
inductive HasArg where
  | no
  | required
  | optional
  deriving DecidableEq

/-- The entry of a character in the list of options: it has an argument if a colon follows it, and
may have one if two do. -/
def entry (optstring : Text) (c : UInt8) : Option HasArg :=
  if c = 58 then none
  else (myIndex optstring c).map fun temp =>
    if temp[1]? = some 58 then if temp[2]? = some 58 then .optional else .required else .no

/-- A command line is the options with their arguments, and the operands. -/
structure Parsed where
  answers : List Answer
  options : List Text
  operands : List Text
  deriving DecidableEq

/-- What a command line depends on beside its arguments. -/
structure Setting where
  optstring : Text
  posix : Bool
  opterr : Bool
  program : Text

/-- The answer to a character that is no option. -/
def Setting.invalid (s : Setting) (c : UInt8) : Answer :=
  ⟨63, none, complain (s.opterr && s.optstring.head? ≠ some 58) [s.program]
    (if s.posix then "illegal option" else "invalid option") c⟩

/-- The answer to an option without the argument that it requires. -/
def Setting.missing (s : Setting) (c : UInt8) : Answer :=
  ⟨if s.optstring.head? = some 58 then 58 else 63, none,
    complain (s.opterr && s.optstring.head? ≠ some 58) [s.program] "option requires an argument" c⟩

/-- The rest `cs` of an element and the arguments after it. -/
def parse (s : Setting) (args : List Text) (cs : Text) : Parsed :=
  match cs with
  | c :: cs =>
    match entry s.optstring c with
    | none =>
      let rest := parse s args cs
      { rest with answers := s.invalid c :: rest.answers }
    | some .no =>
      let rest := parse s args cs
      { rest with answers := ⟨charCode c, none, none⟩ :: rest.answers }
    | some .optional =>
      let rest := parse s args []
      { rest with
        answers := ⟨charCode c, if cs = [] then none else some cs, none⟩ :: rest.answers }
    | some .required =>
      if cs ≠ [] then
        let rest := parse s args []
        { rest with answers := ⟨charCode c, some cs, none⟩ :: rest.answers }
      else
        match args with
        | [] => ⟨[s.missing c], [], []⟩
        | arg :: args =>
          let rest := parse s args []
          { rest with
            answers := ⟨charCode c, some arg, none⟩ :: rest.answers
            options := arg :: rest.options }
  | [] =>
    match args with
    | [] => ⟨[], [], []⟩
    | arg :: args =>
      if arg = dashes then ⟨[], [arg], args⟩
      else if nonoption arg then
        if s.posix then ⟨[], [], arg :: args⟩
        else
          let rest := parse s args []
          { rest with operands := arg :: rest.operands }
      else
        let rest := parse s args arg.tail
        { rest with options := arg :: rest.options }
termination_by (args.length, cs.length)

end Getopt

end AirspyHF
