import AirspyHF.Machine.Basic
import AirspyHF.Tools.Getopt
import Mathlib.Algebra.GroupWithZero.Nat
import Mathlib.Data.List.Perm.Basic
import Mathlib.Data.List.TakeWhile

/-!
# What a tool reads from its command line

The calls of `getopt` give the options of the command line in order, each with its argument, and
leave the arguments reordered: the options first, then the operands, both in the order in which
they were given.

* `parse_perm`, `parse_sublist` : a command line is split into its options and its operands.
* `getopt_step` : one call gives one answer, or the end.
* `scan_eq` : the calls of a tool read the whole command line.
* `optionLoop_eq` : the loop of a tool reads the answers of the command line.
-/

namespace AirspyHF

namespace Getopt

/-- A list of options as the tools have them: it does not ask for another order, names no long
options, and has no character that a caller takes for the end. -/
structure Plain (optstring : Text) : Prop where
  order : optstring.head? ≠ some 45 ∧ optstring.head? ≠ some 43
  long : (myIndex optstring 87).bind (·[1]?) ≠ some 59
  code : 255 ∉ optstring

instance (optstring : Text) : Decidable (Plain optstring) :=
  decidable_of_iff ((optstring.head? ≠ some 45 ∧ optstring.head? ≠ some 43) ∧
    (myIndex optstring 87).bind (·[1]?) ≠ some 59 ∧ 255 ∉ optstring)
    ⟨fun h => ⟨h.1, h.2.1, h.2.2⟩, fun h => ⟨h.order, h.long, h.code⟩⟩

/-! ### Options and operands -/

variable {s : Setting}

/-- **The arguments** are the options and the operands. -/
theorem parse_perm (s : Setting) (args : List Text) (cs : Text) :
    ((parse s args cs).options ++ (parse s args cs).operands).Perm args := by
  fun_induction parse s args cs with
  | case1 args c cs h rest ih | case2 args c cs h rest ih | case3 args c cs h rest ih
  | case4 args c cs h hcs rest ih => exact ih
  | case5 | case7 | case8 | case9 => exact .refl _
  | case6 c cs h hcs arg args rest ih | case11 arg args hdashes harg rest ih => exact ih.cons arg
  | case10 arg args hdashes harg hposix rest ih => exact List.perm_middle.trans (ih.cons arg)

theorem parse_sublist (s : Setting) (args : List Text) (cs : Text) :
    (parse s args cs).options.Sublist args ∧ (parse s args cs).operands.Sublist args := by
  fun_induction parse s args cs with
  | case1 args c cs h rest ih | case2 args c cs h rest ih | case3 args c cs h rest ih
  | case4 args c cs h hcs rest ih => exact ih
  | case5 | case7 => exact ⟨.refl _, .refl _⟩
  | case6 c cs h hcs arg args rest ih | case11 arg args hdashes harg rest ih =>
    exact ⟨ih.1.cons_cons arg, ih.2.cons arg⟩
  | case8 args => exact ⟨(List.nil_sublist args).cons_cons dashes, (List.Sublist.refl args).cons _⟩
  | case9 => exact ⟨List.nil_sublist _, .refl _⟩
  | case10 arg args hdashes harg hposix rest ih => exact ⟨ih.1.cons arg, ih.2.cons_cons arg⟩

theorem parse_dashes (s : Setting) (args : List Text) :
    parse s (dashes :: args) [] = ⟨[], [dashes], args⟩ := by
  rw [parse, if_pos rfl]

theorem parse_element {arg : Text} (hdashes : arg ≠ dashes) (harg : nonoption arg = false)
    (args : List Text) : parse s (arg :: args) [] =
      { parse s args arg.tail with options := arg :: (parse s args arg.tail).options } := by
  rw [parse, if_neg hdashes, if_neg (by simp [harg])]

theorem parse_operand {arg : Text} (harg : nonoption arg = true) (args : List Text) :
    parse s (arg :: args) [] =
      if s.posix then ⟨[], [], arg :: args⟩
      else { parse s args [] with operands := arg :: (parse s args []).operands } := by
  have hdashes : arg ≠ dashes := by
    rintro rfl
    exact absurd harg (by decide)
  rw [parse, if_neg hdashes, if_pos harg]

theorem parse_operands (hposix : s.posix = false) {skip : List Text}
    (hskip : ∀ arg ∈ skip, nonoption arg = true) (args : List Text) :
    parse s (skip ++ args) [] =
      { parse s args [] with operands := skip ++ (parse s args []).operands } := by
  induction skip with
  | nil => rfl
  | cons arg skip ih =>
    have hrest := ih fun arg' harg' => hskip arg' (List.mem_cons_of_mem _ harg')
    rw [List.cons_append, parse_operand (hskip arg List.mem_cons_self), hrest,
      if_neg (by simp [hposix])]
    rfl

section

variable {c : UInt8} (args : List Text) (cs : Text)

theorem parse_invalid (h : entry s.optstring c = none) : parse s args (c :: cs) =
    { parse s args cs with answers := s.invalid c :: (parse s args cs).answers } := by
  rw [parse.eq_def]
  simp only [h]

theorem parse_no (h : entry s.optstring c = some .no) : parse s args (c :: cs) =
    { parse s args cs with
      answers := ⟨charCode c, none, none⟩ :: (parse s args cs).answers } := by
  rw [parse.eq_def]
  simp only [h]

theorem parse_optional (h : entry s.optstring c = some .optional) : parse s args (c :: cs) =
    { parse s args [] with
      answers := ⟨charCode c, if cs = [] then none else some cs, none⟩ ::
        (parse s args []).answers } := by
  rw [parse.eq_def]
  simp only [h]

theorem parse_required (h : entry s.optstring c = some .required) {cs : Text} (hcs : cs ≠ []) :
    parse s args (c :: cs) =
      { parse s args [] with
        answers := ⟨charCode c, some cs, none⟩ :: (parse s args []).answers } := by
  rw [parse.eq_def]
  simp only [h, if_pos hcs]

theorem parse_missing (h : entry s.optstring c = some .required) :
    parse s [] [c] = ⟨[s.missing c], [], []⟩ := by
  rw [parse.eq_def]
  simp only [h, ne_eq, not_true_eq_false, if_false]

theorem parse_argument (h : entry s.optstring c = some .required) (arg : Text) :
    parse s (arg :: args) [c] =
      { parse s args [] with
        answers := ⟨charCode c, some arg, none⟩ :: (parse s args []).answers
        options := arg :: (parse s args []).options } := by
  rw [parse.eq_def]
  simp only [h, ne_eq, not_true_eq_false, if_false]

end

/-! ### Where the scan is -/

/-- Where the scan of a command line is. -/
structure Place where
  /-- The program, and the options that stand before the skipped operands. -/
  done : List Text
  skipped : List Text
  /-- The options after the skipped operands. -/
  recent : List Text
  /-- The element that is decoded, and its characters that are left. -/
  element : Option Text
  cs : Text
  rest : List Text

namespace Place

/-- The arguments as they stand. -/
def argv (p : Place) : List Text :=
  p.done ++ (p.skipped ++ (p.recent ++ (p.element.toList ++ p.rest)))

/-- What is still to be read. -/
def parsed (s : Setting) (p : Place) : Parsed := parse s p.rest p.cs

/-- The program and the options, when everything is read. -/
def front (s : Setting) (p : Place) : List Text :=
  p.done ++ (p.recent ++ (p.element.toList ++ (p.parsed s).options))

/-- The operands, when everything is read. -/
def back (s : Setting) (p : Place) : List Text := p.skipped ++ (p.parsed s).operands

/-- Two places from which the same is read. -/
structure Same (s : Setting) (p p' : Place) : Prop where
  answers : (p'.parsed s).answers = (p.parsed s).answers
  front : p'.front s = p.front s
  back : p'.back s = p.back s

theorem Same.trans {p p' p'' : Place} (h : Same s p p') (h' : Same s p' p'') : Same s p p'' :=
  ⟨h'.answers.trans h.answers, h'.front.trans h.front, h'.back.trans h.back⟩

end Place

/-- The variables at a place. -/
structure At (s : Setting) (v : Vars) (p : Place) : Prop where
  first : v.firstNonopt = p.done.length
  last : v.lastNonopt = p.done.length + p.skipped.length
  optind : v.optind = p.done.length + p.skipped.length + p.recent.length
  ordering : v.ordering = if s.posix then .requireOrder else .permute
  posixlyCorrect : v.posixlyCorrect = s.posix
  opterr : v.opterr = s.opterr
  initialized : v.initialized = true
  skipped : s.posix = true → p.skipped = []
  program : p.done.head? = some s.program
  nextchar : v.nextchar.getD [] = p.cs
  element : p.element = none ↔ p.cs = []

theorem exchange_eq {v : Vars} {l a b : List Text} (r : List Text)
    (hfirst : v.firstNonopt = l.length) (hlast : v.lastNonopt = l.length + a.length)
    (hoptind : v.optind = l.length + a.length + b.length) :
    exchange v (l ++ (a ++ (b ++ r))) =
      some ({ v with firstNonopt := l.length + b.length, lastNonopt := v.optind },
        l ++ (b ++ (a ++ r))) := by
  have hloop := C.exchangeLoop_eq l a b r
    (show a.length + b.length < l.length + a.length + b.length + 1 by omega)
  have hmoved : l.length + a.length + b.length - (l.length + a.length) = b.length := by omega
  rw [exchange, hfirst, hlast, hoptind, hloop, hmoved, Option.map_some]

/-! ### One call -/

theorem gather_eq {v : Vars} {l a b : List Text} (r : List Text)
    (hfirst : v.firstNonopt = l.length) (hlast : v.lastNonopt = l.length + a.length)
    (hoptind : v.optind = l.length + a.length + b.length) :
    ∃ last, gather v (l ++ (a ++ (b ++ r))) =
      some ({ v with firstNonopt := l.length + b.length, lastNonopt := last },
        l ++ (b ++ (a ++ r))) := by
  unfold gather
  split_ifs with hboth hlater
  · exact ⟨_, exchange_eq r hfirst hlast hoptind⟩
  · obtain rfl : a = [] := List.length_eq_zero_iff.1 (by omega)
    exact ⟨v.lastNonopt, by rw [hoptind]; rfl⟩
  · obtain rfl : b = [] := List.length_eq_zero_iff.1 (by omega)
    exact ⟨v.lastNonopt, by rw [List.length_nil, Nat.add_zero, ← hfirst]; rfl⟩

/-- After that, the scan skips the operands that follow. -/
theorem reorder_permute {v : Vars} {l a b : List Text} (r : List Text)
    (hordering : v.ordering = .permute) (hfirst : v.firstNonopt = l.length)
    (hlast : v.lastNonopt = l.length + a.length)
    (hoptind : v.optind = l.length + a.length + b.length) :
    reorder v (l ++ (a ++ (b ++ r))) = some ({ v with
      firstNonopt := l.length + b.length
      lastNonopt := v.optind + (r.takeWhile nonoption).length
      optind := v.optind + (r.takeWhile nonoption).length }, l ++ (b ++ (a ++ r))) := by
  obtain ⟨last, hgather⟩ := gather_eq r hfirst hlast hoptind
  have hdrop : (l ++ (b ++ (a ++ r))).drop v.optind = r := by
    have hlen : v.optind = (l ++ (b ++ a)).length := by
      simp only [hoptind, List.length_append]
      omega
    have hassoc : l ++ (b ++ (a ++ r)) = l ++ (b ++ a) ++ r := by simp
    rw [hlen, hassoc, List.drop_left]
  rw [reorder, if_pos hordering, hgather, Option.map_some]
  simp only [hdrop]

/-- **Before the next element** the operands that were scanned are behind the options that were. -/
theorem reorder_eq {v : Vars} {p : Place} (h : At s v p) (hcs : p.cs = []) :
    ∃ v' p', reorder v p.argv = some (v', p'.argv) ∧ At s v' p' ∧ p'.cs = [] ∧
      v'.optarg = v.optarg ∧ Place.Same s p p' ∧
      (s.posix = false → p'.recent = [] ∧ ∀ arg ∈ p'.rest.head?, nonoption arg = false) := by
  have helement := h.element.2 hcs
  have hordering := h.ordering
  cases hposix : s.posix with
  | true =>
    rw [hposix, if_pos rfl] at hordering
    exact ⟨v, p, by rw [reorder, hordering]; rfl, h, hcs, rfl, ⟨rfl, rfl, rfl⟩, nofun⟩
  | false =>
    rw [hposix, if_neg (by simp)] at hordering
    obtain ⟨done, skipped, recent, element, cs, rest⟩ := p
    subst hcs helement
    have hsplit := List.takeWhile_append_dropWhile (p := nonoption) (l := rest)
    have hskipped : ∀ arg ∈ rest.takeWhile nonoption, nonoption arg = true :=
      fun arg harg => List.mem_takeWhile_imp harg
    have hparse := parse_operands hposix hskipped (rest.dropWhile nonoption)
    rw [hsplit] at hparse
    refine ⟨{ v with
        firstNonopt := done.length + recent.length
        lastNonopt := v.optind + (rest.takeWhile nonoption).length
        optind := v.optind + (rest.takeWhile nonoption).length },
      ⟨done ++ recent, skipped ++ rest.takeWhile nonoption, [], none, [],
        rest.dropWhile nonoption⟩,
      (reorder_permute rest hordering h.first h.last h.optind).trans ?_, ?_, rfl, rfl,
      ⟨?_, ?_, ?_⟩, fun _ => ⟨rfl, ?_⟩⟩
    · simp [Place.argv, hsplit]
    · have hoptind := h.optind
      simp only at hoptind
      have hplace : v.optind + (rest.takeWhile nonoption).length =
          (done ++ recent).length + (skipped ++ rest.takeWhile nonoption).length := by
        simp only [List.length_append]
        omega
      exact ⟨List.length_append.symm, hplace, hplace, h.ordering, h.posixlyCorrect, h.opterr,
        h.initialized, by simp [hposix], by simp [h.program], h.nextchar, h.element⟩
    · simp [Place.parsed, hparse]
    · simp [Place.front, Place.parsed, hparse]
    · simp [Place.back, Place.parsed, hparse]
    · intro arg harg
      have hhead := List.head?_dropWhile_not nonoption rest
      rw [Option.mem_def] at harg
      rw [harg] at hhead
      simpa using hhead

theorem At.next {v : Vars} {p : Place} (h : At s v p) (hcs : p.cs = []) :
    p.argv[v.optind]? = p.rest.head? ∧ (v.optind = p.argv.length ↔ p.rest = []) := by
  have helement := h.element.2 hcs
  have hargv : p.argv = p.done ++ p.skipped ++ p.recent ++ p.rest := by
    simp [Place.argv, helement]
  have hlen : v.optind = (p.done ++ p.skipped ++ p.recent).length := by
    simp only [h.optind, List.length_append]
  rw [hargv, hlen, List.getElem?_append_right (Nat.le_refl _), Nat.sub_self, List.head?_eq_getElem?]
  exact ⟨rfl, by simp⟩

theorem gatherDashes_eq {v : Vars} {l a b : List Text} (r : List Text)
    (hfirst : v.firstNonopt = l.length) (hlast : v.lastNonopt = l.length + a.length)
    (hoptind : v.optind = l.length + a.length + b.length) (hb : b ≠ []) :
    ∃ v', gatherDashes v (l ++ (a ++ (b ++ r))) = some (v', l ++ (b ++ (a ++ r))) ∧
      v'.firstNonopt = l.length + b.length := by
  have hpos := List.length_pos_iff.2 hb
  unfold gatherDashes
  split_ifs with hboth hnone
  · exact ⟨_, exchange_eq r hfirst hlast hoptind, rfl⟩
  · obtain rfl : a = [] := List.length_eq_zero_iff.1 (by omega)
    exact ⟨_, rfl, hoptind⟩
  · omega

/-- **The element `--`** stands before the operands then, and everything after it behind. -/
theorem skipDashes_dashes {v : Vars} {p : Place} (h : At s v p) (hcs : p.cs = [])
    {args : List Text} (hrest : p.rest = dashes :: args) :
    ∃ v', skipDashes v p.argv = some (v', p.front s ++ p.back s) ∧
      v'.optind = (p.front s ++ p.back s).length ∧ v'.lastNonopt = v'.optind ∧
      v'.firstNonopt = (p.front s).length := by
  obtain ⟨hnext, hend⟩ := h.next hcs
  have helement := h.element.2 hcs
  have hargv : p.argv = p.done ++ (p.skipped ++ (p.recent ++ [dashes] ++ args)) := by
    simp [Place.argv, helement, hrest]
  have hfront : p.front s = p.done ++ (p.recent ++ [dashes]) := by
    simp [Place.front, Place.parsed, helement, hcs, hrest, parse_dashes]
  have hback : p.back s = p.skipped ++ args := by
    simp [Place.back, Place.parsed, hcs, hrest, parse_dashes]
  obtain ⟨v', hv', hfirst⟩ := gatherDashes_eq (v := { v with optind := v.optind + 1 }) (l := p.done)
    (a := p.skipped) (b := p.recent ++ [dashes]) args h.first h.last (by
      rw [List.length_append, List.length_singleton, h.optind, Nat.add_assoc]) (by simp)
  have hboth : v.optind ≠ p.argv.length ∧ p.argv[v.optind]? = some dashes := by
    rw [hnext, ne_eq, hend, hrest]
    exact ⟨by simp, rfl⟩
  have hfinal :
      p.done ++ (p.recent ++ [dashes] ++ (p.skipped ++ args)) = p.front s ++ p.back s := by
    rw [hfront, hback, List.append_assoc p.done]
  refine ⟨{ v' with
    lastNonopt := (p.front s ++ p.back s).length
    optind := (p.front s ++ p.back s).length }, ?_, rfl, rfl, ?_⟩
  · rw [skipDashes, if_pos hboth, hargv, hv', Option.map_some, hfinal]
  · exact hfirst.trans (hfront ▸ List.length_append.symm)

theorem skipDashes_of_ne {v : Vars} {p : Place} (h : At s v p) (hcs : p.cs = [])
    (hrest : p.rest.head? ≠ some dashes) : skipDashes v p.argv = some (v, p.argv) := by
  rw [skipDashes, (h.next hcs).1, if_neg (by simp [hrest])]

theorem nonoption_tail {arg : Text} (h : nonoption arg = false) : arg.tail ≠ [] := by
  simp only [nonoption, Bool.decide_or, Bool.or_eq_false_iff, decide_eq_false_iff_not] at h
  exact h.2

/-- The scan ends at a place: it has read everything, and `optind` is where the operands are. -/
def Ends (s : Setting) (p : Place) (result : Option (Result ⊕ Vars × List Text)) : Prop :=
  (p.parsed s).answers = [] ∧ ∃ v', result = some (.inl ⟨-1, v', p.front s ++ p.back s, none⟩) ∧
    v'.optind = (p.front s).length

theorem enter_end {v : Vars} {argv : List Text} {n : ℕ} (hend : v.optind = argv.length)
    (hskipped : v.firstNonopt ≠ v.lastNonopt → v.firstNonopt = n)
    (hnone : v.firstNonopt = v.lastNonopt → v.optind = n) :
    ∃ v', enter v argv = some (.inl ⟨-1, v', argv, none⟩) ∧ v'.optind = n := by
  refine ⟨_, if_pos hend, ?_⟩
  split
  · exact hskipped ‹_›
  · exact hnone (not_not.1 ‹_›)

/-- The scan ends after the last argument. -/
theorem ends_nil {v : Vars} {p : Place} (h : At s v p) (hcs : p.cs = [])
    (hsorted : p.skipped = [] ∨ p.recent = []) (hrest : p.rest = []) :
    Ends s p ((skipDashes v p.argv).bind fun x => enter x.1 x.2) := by
  have helement := h.element.2 hcs
  have hparsed : p.parsed s = ⟨[], [], []⟩ := by
    rw [Place.parsed, hrest, hcs, parse]
  have hfront : p.front s = p.done ++ p.recent := by
    simp [Place.front, hparsed, helement]
  have hargv : p.argv = p.front s ++ p.back s := by
    rw [hfront, Place.argv, Place.back, hparsed, hrest, helement]
    rcases hsorted with hnil | hnil <;> simp [hnil]
  have hlen : p.skipped.length = 0 ∨ p.recent.length = 0 := by
    simpa only [List.length_eq_zero_iff] using hsorted
  have hfirst := h.first
  have hlast := h.last
  have hoptind := h.optind
  rw [skipDashes_of_ne h hcs (by simp [hrest]), Option.bind_some]
  obtain ⟨v', hv', hn⟩ := enter_end (n := p.done.length + p.recent.length)
    ((h.next hcs).2.2 hrest) (fun _ => by omega) (fun _ => by omega)
  exact ⟨by rw [hparsed], v', hargv ▸ hv', by rw [hn, hfront, List.length_append]⟩

theorem ends_dashes {v : Vars} {p : Place} (h : At s v p) (hcs : p.cs = []) {args : List Text}
    (hrest : p.rest = dashes :: args) :
    Ends s p ((skipDashes v p.argv).bind fun x => enter x.1 x.2) := by
  obtain ⟨v₁, hskip, hend, hlast, hfirst⟩ := skipDashes_dashes h hcs hrest
  rw [hskip, Option.bind_some]
  obtain ⟨v', hv', hn⟩ := enter_end hend (fun _ => hfirst)
    (fun heq => by rw [← hlast, ← heq, hfirst])
  exact ⟨by rw [Place.parsed, hrest, hcs, parse_dashes], v', hv', hn⟩

/-- The scan ends at the first operand, if the order is required. -/
theorem ends_operand {v : Vars} {p : Place} (h : At s v p) (hcs : p.cs = [])
    (hposix : s.posix = true) {arg : Text} {args : List Text} (hrest : p.rest = arg :: args)
    (harg : nonoption arg = true) :
    Ends s p ((skipDashes v p.argv).bind fun x => enter x.1 x.2) := by
  obtain ⟨hnext, hend⟩ := h.next hcs
  have hne : arg ≠ dashes := by
    rintro rfl
    exact absurd harg (by decide)
  have hparsed : p.parsed s = ⟨[], [], arg :: args⟩ := by
    rw [Place.parsed, hrest, hcs, parse_operand harg, if_pos hposix]
  have hfront : p.front s = p.done ++ p.recent := by
    simp [Place.front, hparsed, h.element.2 hcs]
  have hargv : p.argv = p.front s ++ p.back s := by
    simp [hfront, Place.argv, Place.back, hparsed, hrest, h.element.2 hcs, h.skipped hposix]
  rw [skipDashes_of_ne h hcs (by simp [hrest, hne]), Option.bind_some]
  refine ⟨by rw [hparsed], v, ?_, ?_⟩
  · rw [enter, if_neg (by rw [hend, hrest]; simp), hnext, hrest, List.head?_cons, Option.map_some,
      if_pos harg, h.ordering, if_pos hposix, if_pos rfl, hargv]
  · rw [h.optind, h.skipped hposix, hfront, List.length_append, List.length_nil, Nat.add_zero]

/-- The scan enters the next option. -/
theorem enter_element {v : Vars} {p : Place} (h : At s v p) (hcs : p.cs = []) {arg : Text}
    {args : List Text} (hrest : p.rest = arg :: args) (hne : arg ≠ dashes)
    (harg : nonoption arg = false) :
    ∃ v' p', (skipDashes v p.argv).bind (fun x => enter x.1 x.2) = some (.inr (v', p'.argv)) ∧
      At s v' p' ∧ p'.cs ≠ [] ∧ v'.optarg = v.optarg ∧ Place.Same s p p' := by
  obtain ⟨hnext, hend⟩ := h.next hcs
  have helement := h.element.2 hcs
  have hparsed : p.parsed s =
      { parse s args arg.tail with options := arg :: (parse s args arg.tail).options } := by
    rw [Place.parsed, hrest, hcs, parse_element hne harg]
  have htail := nonoption_tail harg
  refine ⟨{ v with nextchar := some arg.tail },
    { p with element := some arg, cs := arg.tail, rest := args }, ?_,
    { h with nextchar := rfl, element := by simp [htail] }, htail, rfl, ?_⟩
  · have hargv :
        p.argv = Place.argv { p with element := some arg, cs := arg.tail, rest := args } := by
      simp [Place.argv, hrest, helement]
    rw [skipDashes_of_ne h hcs (by simp [hrest, hne]), Option.bind_some, enter,
      if_neg (by rw [hend, hrest]; simp), hnext, hrest, List.head?_cons, Option.map_some,
      if_neg (by simp [harg]), hargv]
  · constructor
    · rw [hparsed]
      rfl
    · simp [Place.front, hparsed, helement]
      rfl
    · rw [Place.back, Place.back, hparsed]
      rfl

/-- **What the scan finds when it advances**: the end, or the next element. -/
theorem advance_cases {v : Vars} {p : Place} (h : At s v p) (hcs : p.cs = []) :
    Ends s p (advance v p.argv) ∨
      ∃ v' p', advance v p.argv = some (.inr (v', p'.argv)) ∧ At s v' p' ∧ p'.cs ≠ [] ∧
        v'.optarg = v.optarg ∧ Place.Same s p p' := by
  obtain ⟨v₁, p₁, hreorder, h₁, hcs₁, hoptarg, hsame, hpermute⟩ := reorder_eq h hcs
  have hadvance : advance v p.argv =
      (skipDashes v₁ p₁.argv).bind fun x => enter x.1 x.2 := by
    have hlast : min v.lastNonopt v.optind = v.lastNonopt := by
      rw [h.last, h.optind]
      omega
    have hfirst : min v.firstNonopt v.optind = v.firstNonopt := by
      rw [h.first, h.optind]
      omega
    simp only [advance, hlast, hfirst, hreorder, Option.bind_some]
  have hends (hend : Ends s p₁ (advance v p.argv)) : Ends s p (advance v p.argv) := by
    rw [Ends, hsame.answers, hsame.front, hsame.back] at hend
    exact hend
  have hsorted : p₁.skipped = [] ∨ p₁.recent = [] := by
    cases hposix : s.posix with
    | true => exact .inl (h₁.skipped hposix)
    | false => exact .inr (hpermute hposix).1
  -- what the scan stands before: nothing, the element `--`, an operand or an option
  rcases hrest : p₁.rest with _ | ⟨arg, args⟩
  · exact .inl (hends (hadvance ▸ ends_nil h₁ hcs₁ hsorted hrest))
  · by_cases hdashes : arg = dashes
    · exact .inl (hends (hadvance ▸ ends_dashes h₁ hcs₁ (hdashes ▸ hrest)))
    · cases harg : nonoption arg with
      | true =>
        have hposix : s.posix = true := by
          by_contra hfalse
          have hoption := (hpermute (by simpa using hfalse)).2 arg (by simp [hrest])
          simp [harg] at hoption
        exact .inl (hends (hadvance ▸ ends_operand h₁ hcs₁ hposix hrest harg))
      | false =>
        obtain ⟨v', p', hv', h', hcs', hoptarg', hsame'⟩ := enter_element h₁ hcs₁ hrest hdashes harg
        exact .inr ⟨v', p', hadvance.trans hv', h', hcs', hoptarg'.trans hoptarg,
          hsame.trans hsame'⟩

/-! ### The characters of an element -/

theorem myIndex_eq_some {str temp : Text} {c : UInt8} (h : myIndex str c = some temp) :
    temp.head? = some c ∧ c ∈ str := by
  induction str with
  | nil => simp [myIndex] at h
  | cons x str ih =>
    rw [myIndex] at h
    split at h
    · obtain rfl := Option.some.inj h
      subst x
      exact ⟨rfl, List.mem_cons_self⟩
    · exact ⟨(ih h).1, List.mem_cons_of_mem _ (ih h).2⟩

theorem charCode_ne {c : UInt8} (h : c ≠ 255) : charCode c ≠ -1 := by
  intro hcode
  have hint : c.toInt8 = -1 := Int8.toInt_inj.1 hcode
  have huint := congrArg Int8.toUInt8 hint
  exact h (c.toUInt8_toInt8.symm.trans huint)

/-- The variables after a character. -/
def Vars.read (v : Vars) (nextchar : Text) : Vars :=
  { v with
    nextchar := some nextchar
    optind := if nextchar = [] then v.optind + 1 else v.optind }

/-- The variables after an element, and the argument that its last option has. -/
def Vars.leave (v : Vars) (optarg : Option Text) : Vars :=
  { v with optarg := optarg, optind := v.optind + 1, nextchar := none }

/-- **One character** is looked up in the list of options. -/
theorem shortOption_eq {optstring : Text} (hplain : Plain optstring) {v : Vars} {c : UInt8}
    {cs : Text} (hnext : v.nextchar = some (c :: cs)) (hoptarg : v.optarg = none)
    (printErrors : Bool) (argv : List Text) :
    shortOption printErrors optstring v argv =
      match entry optstring c with
      | none =>
        some ⟨63, { v.read cs with optopt := charCode c }, argv, complain printErrors argv
          (if v.posixlyCorrect then "illegal option" else "invalid option") c⟩
      | some .no => some ⟨charCode c, v.read cs, argv, none⟩
      | some .optional => some ⟨charCode c, v.leave (if cs = [] then none else some cs), argv, none⟩
      | some .required =>
        if cs ≠ [] then some ⟨charCode c, v.leave (some cs), argv, none⟩
        else if v.optind + 1 = argv.length then
          some (missing printErrors optstring c (v.leave none) argv)
        else
          (argv[v.optind + 1]?).map fun arg =>
            ⟨charCode c, { v.leave (some arg) with optind := v.optind + 2 }, argv, none⟩ := by
  unfold shortOption entry
  rw [hnext]
  cases htemp : myIndex optstring c with
  | none =>
    by_cases hcolon : c = 58
    · subst hcolon
      simp [htemp, Vars.read]
    · simp [htemp, hcolon, Vars.read]
  | some temp =>
    by_cases hcolon : c = 58
    · subst hcolon
      simp [htemp, Vars.read]
    · have hlong : ¬ (temp[0]? = some 87 ∧ temp[1]? = some 59) := by
        rintro ⟨hw, hsemicolon⟩
        have hhead := (myIndex_eq_some htemp).1
        rw [List.head?_eq_getElem?, hw] at hhead
        obtain rfl := Option.some.inj hhead
        exact hplain.long (by rw [htemp, Option.bind_some, hsemicolon])
      simp only [hcolon, if_false, Option.map_some]
      split_ifs with h₁ h₂ hcs hcs hend
      all_goals simp_all [Vars.read, Vars.leave, missing]

namespace Place

/-- The place after the element that is decoded. -/
def leave (p : Place) : Place :=
  { p with recent := p.recent ++ p.element.toList, element := none, cs := [] }

/-- The place after a character of it. -/
def read (p : Place) (cs : Text) : Place := if cs = [] then p.leave else { p with cs := cs }

theorem leave_argv (p : Place) : p.leave.argv = p.argv := by
  simp [leave, argv]

theorem read_argv (p : Place) (cs : Text) : (p.read cs).argv = p.argv := by
  unfold read
  split
  · exact p.leave_argv
  · rfl

/-- A place that is reached by an answer: what is read there is the rest. -/
structure After (s : Setting) (p : Place) (answer : Answer) (p' : Place) : Prop where
  answers : (p.parsed s).answers = answer :: (p'.parsed s).answers
  front : p'.front s = p.front s
  back : p'.back s = p.back s

theorem After.leave {p : Place} {answer : Answer}
    (h : p.parsed s =
      { parse s p.rest [] with answers := answer :: (parse s p.rest []).answers }) :
    After s p answer p.leave := by
  constructor
  · rw [h]
    rfl
  · have hleave : p.leave.parsed s = parse s p.rest [] := rfl
    rw [Place.front, Place.front, hleave, h]
    simp [Place.leave]
  · rw [Place.back, Place.back, h]
    rfl

theorem After.read {p : Place} {answer : Answer} {cs : Text}
    (h : p.parsed s =
      { parse s p.rest cs with answers := answer :: (parse s p.rest cs).answers }) :
    After s p answer (p.read cs) := by
  by_cases hcs : cs = []
  · subst hcs
    exact .leave h
  · rw [Place.read, if_neg hcs]
    exact ⟨by rw [h]; rfl, by rw [Place.front, Place.front, h]; rfl,
      by rw [Place.back, Place.back, h]; rfl⟩

end Place

theorem At.leave {v : Vars} {p : Place} (h : At s v p) (hcs : p.cs ≠ []) (optarg : Option Text) :
    At s (v.leave optarg) p.leave := by
  obtain ⟨element, helement⟩ := Option.ne_none_iff_exists'.1 (mt h.element.1 hcs)
  have hoptind : v.optind + 1 =
      p.done.length + p.skipped.length + (p.recent ++ p.element.toList).length := by
    rw [h.optind, helement, List.length_append]
    rfl
  exact ⟨h.first, h.last, hoptind, h.ordering, h.posixlyCorrect, h.opterr, h.initialized, h.skipped,
    h.program, rfl, by simp [Place.leave]⟩

theorem At.read {v : Vars} {p : Place} (h : At s v p) (hcs : p.cs ≠ []) (cs : Text) :
    At s (v.read cs) (p.read cs) := by
  by_cases hend : cs = []
  · subst hend
    have hleave := h.leave hcs v.optarg
    rw [Place.read, if_pos rfl]
    exact { hleave with nextchar := rfl }
  · have helement := mt h.element.1 hcs
    rw [Place.read, if_neg hend]
    exact { h with
      optind := (if_neg hend).trans h.optind
      nextchar := rfl
      element := by simp [helement, hend] }

theorem At.take {v : Vars} {p : Place} (h : At s v p) (arg : Text) (args : List Text) :
    At s { v with optind := v.optind + 1 }
      { p with recent := p.recent ++ [arg], rest := args } := by
  have hoptind : v.optind + 1 =
      p.done.length + p.skipped.length + (p.recent ++ [arg]).length := by
    rw [h.optind, List.length_append, List.length_singleton, Nat.add_assoc]
  exact { h with optind := hoptind }

theorem At.optopt {v : Vars} {p : Place} (h : At s v p) (optopt : ℤ) :
    At s { v with optopt := optopt } p :=
  { h with }

theorem At.complain_eq {v : Vars} {p : Place} (h : At s v p) (printErrors : Bool) (text : String)
    (c : UInt8) :
    complain printErrors p.argv text c = complain printErrors [s.program] text c := by
  have hprogram : p.argv[0]? = some s.program := by
    rw [← List.head?_eq_getElem?, Place.argv, List.head?_append, h.program]
    rfl
  rw [complain, complain, hprogram]
  rfl

/-- **A character** is answered. -/
theorem shortOption_step {s : Setting} (hplain : Plain s.optstring) {v : Vars} {p : Place}
    (h : At s v p) (hcs : p.cs ≠ []) (hoptarg : v.optarg = none) :
    ∃ r p', shortOption (s.opterr && s.optstring.head? ≠ some 58) s.optstring v p.argv = some r ∧
      r.code ≠ -1 ∧ r.argv = p'.argv ∧ At s r.vars p' ∧
      Place.After s p ⟨r.code, r.vars.optarg, r.stderr⟩ p' := by
  obtain ⟨c, cs, hchar⟩ := List.exists_cons_of_ne_nil hcs
  have hnext : v.nextchar = some (c :: cs) := by
    have hgetD := h.nextchar
    rw [hchar] at hgetD
    cases hv : v.nextchar with
    | none => simp [hv] at hgetD
    | some nextchar => simpa [hv] using hgetD
  rw [shortOption_eq hplain hnext hoptarg]
  have hleave := h.leave hcs
  cases hentry : entry s.optstring c with
  | none =>
    refine ⟨_, p.read cs, rfl, show (63 : ℤ) ≠ -1 by decide, (p.read_argv cs).symm,
      (h.read hcs cs).optopt _, .read ?_⟩
    rw [Place.parsed, hchar, parse_invalid p.rest cs hentry, h.complain_eq, h.posixlyCorrect]
    simp only [Setting.invalid, Vars.read, hoptarg]
  | some hasArg =>
    have hcode : charCode c ≠ -1 := by
      refine charCode_ne ?_
      rintro rfl
      refine hplain.code ?_
      rw [entry, if_neg (by decide)] at hentry
      obtain ⟨temp, htemp, -⟩ := Option.map_eq_some_iff.1 hentry
      exact (myIndex_eq_some htemp).2
    cases hasArg with
    | no =>
      refine ⟨_, p.read cs, rfl, hcode, (p.read_argv cs).symm, h.read hcs cs, .read ?_⟩
      rw [Place.parsed, hchar, parse_no p.rest cs hentry]
      simp only [Vars.read, hoptarg]
    | optional =>
      refine ⟨_, p.leave, rfl, hcode, p.leave_argv.symm, hleave _, .leave ?_⟩
      rw [Place.parsed, hchar, parse_optional p.rest cs hentry]
      rfl
    | required =>
      by_cases hcs' : cs = []
      · subst hcs'
        obtain ⟨hargument, hend⟩ := (hleave none).next rfl
        rw [p.leave_argv] at hargument hend
        change v.optind + 1 = p.argv.length ↔ p.rest = [] at hend
        change p.argv[v.optind + 1]? = p.rest.head? at hargument
        simp only [ne_eq, not_true_eq_false, if_false]
        rcases hrest : p.rest with _ | ⟨arg, args⟩
        · rw [if_pos (hend.2 hrest)]
          refine ⟨_, p.leave, rfl, ?_, p.leave_argv.symm, (hleave none).optopt _, .leave ?_⟩
          · unfold missing
            split
            · exact show (58 : ℤ) ≠ -1 by decide
            · exact show (63 : ℤ) ≠ -1 by decide
          · rw [Place.parsed, hchar, hrest, parse_missing hentry, missing, h.complain_eq, parse]
            rfl
        · rw [if_neg (by rw [hend, hrest]; simp), hargument, hrest]
          refine ⟨_, _, rfl, hcode, ?_, (hleave (some arg)).take arg args, ?_, ?_, ?_⟩
          · simp [Place.argv, Place.leave, hrest]
          · rw [Place.parsed, hchar, hrest, parse_argument args hentry]
            rfl
          · simp [Place.front, Place.parsed, hchar, hrest, parse_argument args hentry, Place.leave]
          · simp [Place.back, Place.parsed, hchar, hrest, parse_argument args hentry, Place.leave]
      · refine ⟨_, p.leave, if_pos hcs', hcode, p.leave_argv.symm, hleave _, .leave ?_⟩
        rw [Place.parsed, hchar, parse_required p.rest hentry hcs']
        rfl

/-! ### The calls -/

theorem At.length_pos {v : Vars} {p : Place} (h : At s v p) :
    0 < p.done.length ∧ 0 < p.argv.length := by
  have hpos : 0 < p.done.length := by
    rw [List.length_pos_iff]
    rintro hnil
    simpa [hnil] using h.program
  refine ⟨hpos, ?_⟩
  rw [Place.argv, List.length_append]
  omega

theorem getopt_eq {v : Vars} {p : Place} (h : At s v p) :
    getopt s.posix s.optstring v p.argv =
      next (s.opterr && s.optstring.head? ≠ some 58) s.optstring { v with optarg := none }
        p.argv := by
  obtain ⟨hdone, hargv⟩ := h.length_pos
  have hoptind : v.optind ≠ 0 := by
    rw [h.optind]
    omega
  rw [getopt, if_neg (by omega), if_neg (by simp [hoptind, h.initialized]), h.opterr]

/-- **A call** of `getopt` gives the next answer, or the end. -/
theorem getopt_step (hplain : Plain s.optstring) {v : Vars} {p : Place} (h : At s v p) :
    (∃ v', getopt s.posix s.optstring v p.argv = some ⟨-1, v', p.front s ++ p.back s, none⟩ ∧
      (p.parsed s).answers = [] ∧ v'.optind = (p.front s).length) ∨
    ∃ r p', getopt s.posix s.optstring v p.argv = some r ∧ r.code ≠ -1 ∧ r.argv = p'.argv ∧
      At s r.vars p' ∧ Place.After s p ⟨r.code, r.vars.optarg, r.stderr⟩ p' := by
  have hnone : At s { v with optarg := none } p := { h with }
  have hnext : (v.nextchar = none ∨ v.nextchar = some []) ↔ p.cs = [] := by
    rw [← h.nextchar]
    cases v.nextchar <;> simp
  rw [getopt_eq h, next]
  simp only [hnext]
  by_cases hcs : p.cs = []
  · rw [if_pos hcs]
    obtain ⟨hanswers, v', hv', hoptind⟩ | ⟨v', p', hv', h', hcs', hoptarg, hsame⟩ :=
      advance_cases hnone hcs
    · rw [hv']
      exact .inl ⟨v', rfl, hanswers, hoptind⟩
    · rw [hv']
      obtain ⟨r, p'', hr, hcode, hargv, h'', hafter⟩ := shortOption_step hplain h' hcs' hoptarg
      exact .inr ⟨r, p'', hr, hcode, hargv, h'', hsame.answers ▸ hafter.answers,
        hafter.front.trans hsame.front, hafter.back.trans hsame.back⟩
  · rw [if_neg hcs]
    obtain ⟨r, p', hr, hcode, hargv, h', hafter⟩ := shortOption_step hplain hnone hcs rfl
    exact .inr ⟨r, p', hr, hcode, hargv, h', hafter⟩

/-- **The calls** from some place on read what is left, and the options come first then. -/
theorem scan_at (hplain : Plain s.optstring) {fuel : ℕ} {v : Vars} {p : Place} (h : At s v p)
    (hfuel : (p.parsed s).answers.length < fuel) :
    ∃ v', scan s.posix s.optstring fuel v p.argv =
        some ((p.parsed s).answers, v', p.front s ++ p.back s) ∧
      v'.optind = (p.front s).length := by
  induction fuel generalizing v p with
  | zero => omega
  | succ fuel ih =>
    obtain ⟨v', hcall, hanswers, hoptind⟩ | ⟨r, p', hcall, hcode, hargv, h', hafter⟩ :=
      getopt_step hplain h
    · exact ⟨v', by rw [scan, hcall, Option.bind_some, if_pos rfl, hanswers], hoptind⟩
    · rw [hafter.answers, List.length_cons] at hfuel
      obtain ⟨v', hrest, hoptind⟩ := ih h' (by omega)
      refine ⟨v', ?_, hafter.front ▸ hoptind⟩
      rw [scan, hcall, Option.bind_some, if_neg hcode, hargv, hrest, Option.map_some,
        hafter.answers, hafter.front, hafter.back]

/-- There are no more answers than characters. -/
theorem length_answers_le (s : Setting) (args : List Text) (cs : Text) :
    (parse s args cs).answers.length ≤ cs.length + (args.map List.length).sum := by
  fun_induction parse s args cs with
  | case1 args c cs h rest ih | case2 args c cs h rest ih =>
    change rest.answers.length ≤ _ at ih
    simp only [List.length_cons]
    omega
  | case3 args c cs h rest ih | case4 args c cs h hcs rest ih =>
    change rest.answers.length ≤ _ at ih
    simp only [List.length_cons, List.length_nil] at ih ⊢
    omega
  | case5 | case7 | case8 | case9 => simp
  | case6 c cs h hcs arg args rest ih =>
    change rest.answers.length ≤ _ at ih
    simp only [List.length_cons, List.length_nil, List.map_cons, List.sum_cons] at ih ⊢
    omega
  | case10 arg args hdashes harg hposix rest ih | case11 arg args hdashes harg rest ih =>
    change rest.answers.length ≤ _ at ih
    simp only [List.length_nil, List.length_tail, List.map_cons, List.sum_cons] at ih ⊢
    omega

/-- The place where the scan starts. -/
def Place.begin (s : Setting) (args : List Text) : Place := ⟨[s.program], [], [], none, [], args⟩

/-- The first call. -/
theorem getopt_start (hplain : Plain s.optstring) (args : List Text) :
    ∃ v, At s v (.begin s args) ∧
      getopt s.posix s.optstring { opterr := s.opterr } (s.program :: args) =
        getopt s.posix s.optstring v (s.program :: args) := by
  have hstart : start s.posix s.optstring { opterr := s.opterr } =
      (s.optstring, {
        opterr := s.opterr
        initialized := true
        posixlyCorrect := s.posix
        ordering := if s.posix then .requireOrder else .permute
        firstNonopt := 1
        lastNonopt := 1 }) := by
    simp only [start, getoptInitialize, hplain.order.1, hplain.order.2]
    cases s.posix <;> rfl
  have hat : At s (start s.posix s.optstring { opterr := s.opterr }).2 (.begin s args) := by
    rw [hstart]
    exact ⟨rfl, rfl, rfl, rfl, rfl, rfl, rfl, fun _ => rfl, rfl, rfl, by simp [Place.begin]⟩
  refine ⟨_, hat, ?_⟩
  have hlater := getopt_eq hat
  rw [show (Place.begin s args).argv = s.program :: args from rfl] at hlater
  rw [hlater, getopt, if_neg (by simp), if_pos (by simp), hstart]

/-- **A tool reads its command line**: the answers are those to the options, in order, and the
arguments are the options and then the operands, at which `optind` points. -/
theorem scan_eq (hplain : Plain s.optstring) (args : List Text) {fuel : ℕ}
    (hfuel : (args.map List.length).sum < fuel) :
    ∃ v, scan s.posix s.optstring fuel { opterr := s.opterr } (s.program :: args) =
        some ((parse s args []).answers, v,
          s.program :: ((parse s args []).options ++ (parse s args []).operands)) ∧
      v.optind = 1 + (parse s args []).options.length := by
  obtain ⟨fuel, rfl⟩ := Nat.exists_eq_add_one.2 (Nat.zero_lt_of_lt hfuel)
  obtain ⟨v, hat, hfirst⟩ := getopt_start hplain args
  have hlength := length_answers_le s args []
  rw [List.length_nil, Nat.zero_add] at hlength
  obtain ⟨v', hscan, hoptind⟩ := scan_at hplain hat (lt_of_le_of_lt hlength hfuel)
  refine ⟨v', ?_, hoptind.trans ?_⟩
  · rw [scan, hfirst]
    exact hscan
  · rw [Place.front, List.length_append]
    rfl

/-! ### The loop of a tool -/

section Loop

variable {S : Type*} (M : Machine S Answer)

/-- The loop of a tool over `getopt`, whose `switch` is a machine over the answers: what the options
have set after it, or nothing if the tool shows its usage, or does not end the loop within a number
of calls. -/
def optionLoop (posix : Bool) (optstring : Text) : ℕ → Vars → List Text → S → Option S
  | 0, _, _, _ => none
  | fuel + 1, v, argv, st =>
    (getopt posix optstring v argv).bind fun r =>
      if r.code = -1 then some st
      else (M.step st ⟨r.code, r.vars.optarg, r.stderr⟩).bind fun st =>
        optionLoop posix optstring fuel r.vars r.argv st

variable {M}

/-- The loop goes over the answers of `getopt`. -/
theorem optionLoop_scan {posix : Bool} {optstring : Text} {fuel : ℕ} {v v' : Vars}
    {argv argv' : List Text} {answers : List Answer}
    (h : scan posix optstring fuel v argv = some (answers, v', argv')) (st : S) :
    optionLoop M posix optstring fuel v argv st = M.run st answers := by
  induction fuel generalizing v argv answers st with
  | zero => simp [scan] at h
  | succ fuel ih =>
    rw [scan, Option.bind_eq_some_iff] at h
    obtain ⟨r, hr, h⟩ := h
    rw [optionLoop, hr, Option.bind_some]
    split_ifs at h ⊢ with hend
    · obtain ⟨rfl, -⟩ := Prod.mk.inj (Option.some.inj h)
      rfl
    · obtain ⟨⟨rest, v₁, argv₁⟩, hrest, h⟩ := Option.map_eq_some_iff.1 h
      obtain ⟨rfl, rfl, rfl⟩ := by simpa using h
      rw [Machine.run]
      simp only [ih hrest]

/-- **The loop** reads the command line. -/
theorem optionLoop_eq {optstring : Text} (hplain : Plain optstring) (posix : Bool) (program : Text)
    (args : List Text) {fuel : ℕ} (hfuel : (args.map List.length).sum < fuel) (st : S) :
    optionLoop M posix optstring fuel {} (program :: args) st =
      M.run st (parse ⟨optstring, posix, true, program⟩ args []).answers := by
  obtain ⟨v, hscan, -⟩ := scan_eq (s := ⟨optstring, posix, true, program⟩) hplain args hfuel
  exact optionLoop_scan hscan st

end Loop

/-! ### What is reordered -/

/-- An option is an element that begins with a dash, or the argument of one. -/
theorem parse_options (s : Setting) (args : List Text) (cs : Text) :
    ∀ arg ∈ (parse s args cs).options,
      nonoption arg = false ∨ ∃ a ∈ (parse s args cs).answers, a.optarg = some arg := by
  fun_induction parse s args cs with
  | case1 args c cs h rest ih | case2 args c cs h rest ih | case3 args c cs h rest ih
  | case4 args c cs h hcs rest ih =>
    intro arg harg
    exact (ih arg harg).imp_right fun ⟨a, ha, hopt⟩ => ⟨a, List.mem_cons_of_mem _ ha, hopt⟩
  | case5 | case7 | case9 => exact List.forall_mem_nil _
  | case6 c cs h hcs arg args rest ih =>
    refine List.forall_mem_cons.2 ⟨.inr ⟨_, List.mem_cons_self, rfl⟩, ?_⟩
    intro arg' harg'
    exact (ih arg' harg').imp_right fun ⟨a, ha, hopt⟩ => ⟨a, List.mem_cons_of_mem _ ha, hopt⟩
  | case8 args => exact List.forall_mem_singleton.2 (.inl (by decide))
  | case10 arg args hdashes harg hposix rest ih => exact ih
  | case11 arg args hdashes harg rest ih =>
    exact List.forall_mem_cons.2 ⟨.inl (eq_false_of_ne_true harg), ih⟩

theorem parse_nonoption (hposix : s.posix = false) (args : List Text) (cs : Text)
    (hdashes : dashes ∉ (parse s args cs).options) :
    ∀ arg ∈ (parse s args cs).operands, nonoption arg = true := by
  fun_induction parse s args cs with
  | case1 args c cs h rest ih | case2 args c cs h rest ih | case3 args c cs h rest ih
  | case4 args c cs h hcs rest ih => exact ih hdashes
  | case5 | case7 => exact List.forall_mem_nil _
  | case6 c cs h hcs arg args rest ih => exact ih fun hmem => hdashes (List.mem_cons_of_mem _ hmem)
  | case8 args => exact absurd List.mem_cons_self hdashes
  | case9 arg args hne harg hposix' => simp [hposix] at hposix'
  | case10 arg args hne harg hposix' rest ih => exact List.forall_mem_cons.2 ⟨harg, ih hdashes⟩
  | case11 arg args hne harg rest ih =>
    exact ih fun hmem => hdashes (List.mem_cons_of_mem _ hmem)

/-- **The reordering**: the calls leave the program, then the options, each with its argument, and
then the operands, at which `optind` points.  Nothing is lost, and the order inside both is kept. -/
theorem scan_sorts (hplain : Plain s.optstring) (args : List Text) {fuel : ℕ}
    (hfuel : (args.map List.length).sum < fuel) :
    (∃ v, scan s.posix s.optstring fuel { opterr := s.opterr } (s.program :: args) =
        some ((parse s args []).answers, v,
          s.program :: ((parse s args []).options ++ (parse s args []).operands)) ∧
      v.optind = 1 + (parse s args []).options.length) ∧
    ((parse s args []).options ++ (parse s args []).operands).Perm args ∧
      (parse s args []).options.Sublist args ∧ (parse s args []).operands.Sublist args ∧
      (∀ arg ∈ (parse s args []).options, nonoption arg = false ∨
        ∃ a ∈ (parse s args []).answers, a.optarg = some arg) ∧
      (s.posix = false → dashes ∉ (parse s args []).options →
        ∀ arg ∈ (parse s args []).operands, nonoption arg = true) := by
  obtain ⟨hoptions, hoperands⟩ := parse_sublist s args []
  exact ⟨scan_eq hplain args hfuel, parse_perm s args [], hoptions, hoperands,
    parse_options s args [], fun hposix => parse_nonoption hposix args []⟩

/-- A tool with the options `-w` and `-r`, of which `-r` has an argument. -/
def recorder : Setting := ⟨[119, 114, 58], false, true, [120]⟩

theorem parse_recorder : parse recorder [[97], [45, 119, 114], [98], [99]] [] =
    ⟨[⟨119, none, none⟩, ⟨114, some [98], none⟩], [[45, 119, 114], [98]], [[97], [99]]⟩ := by
  have hw : entry recorder.optstring 119 = some .no := by decide
  have hr : entry recorder.optstring 114 = some .required := by decide
  rw [parse_operand (by decide), if_neg (by decide), parse_element (by decide) (by decide)]
  simp only [List.tail_cons]
  rw [parse_no _ _ hw, parse_argument _ hr, parse_operand (by decide), if_neg (by decide), parse]
  rfl

/-- The command line `a -wr b c` is left as `-wr b a c`. -/
theorem scan_sorts_recorder :
    ∃ v, scan false [119, 114, 58] 10 {} [[120], [97], [45, 119, 114], [98], [99]] =
        some ([⟨119, none, none⟩, ⟨114, some [98], none⟩], v,
          [[120], [45, 119, 114], [98], [97], [99]]) ∧ v.optind = 3 := by
  have hsorts := (scan_sorts (s := recorder) (by decide) [[97], [45, 119, 114], [98], [99]]
    (show _ < 10 by decide)).1
  rw [parse_recorder] at hsorts
  exact hsorts

/-! ### A second scan -/

/-- Every answer is one of the options. -/
def Accepted (answers : List Answer) : Prop := ∀ a ∈ answers, a.code ≠ 63 ∧ a.code ≠ 58

/-- Operands that stand behind the options are read as operands. -/
theorem parse_sorted (hposix : s.posix = false) (args : List Text) (cs : Text)
    (h : Accepted (parse s args cs).answers) (extra : List Text)
    (hextra : ∀ arg ∈ extra, nonoption arg = true) :
    parse s ((parse s args cs).options ++ (extra ++ (parse s args cs).operands)) cs =
      { parse s args cs with operands := extra ++ (parse s args cs).operands } := by
  induction args, cs using parse.induct (s := s) generalizing extra with
  | case1 args c cs hentry ih =>
    rw [parse_invalid args cs hentry] at h
    exact absurd rfl (h (s.invalid c) List.mem_cons_self).1
  | case2 args c cs hentry ih =>
    simp only [parse_no _ cs hentry] at h ⊢
    rw [ih (List.forall_mem_cons.1 h).2 extra hextra]
  | case3 args c cs hentry ih =>
    simp only [parse_optional _ cs hentry] at h ⊢
    rw [ih (List.forall_mem_cons.1 h).2 extra hextra]
  | case4 args c cs hentry hcs ih =>
    simp only [parse_required _ hentry hcs] at h ⊢
    rw [ih (List.forall_mem_cons.1 h).2 extra hextra]
  | case5 c cs hentry hcs =>
    obtain rfl := not_not.1 hcs
    rw [parse_missing hentry] at h
    have hmissing := h (s.missing c) List.mem_cons_self
    unfold Setting.missing at hmissing
    split at hmissing
    · exact absurd rfl hmissing.2
    · exact absurd rfl hmissing.1
  | case6 c cs hentry hcs arg args ih =>
    obtain rfl := not_not.1 hcs
    rw [parse_argument args hentry] at h
    simp only [parse_argument _ hentry, List.cons_append]
    rw [ih (List.forall_mem_cons.1 h).2 extra hextra]
  | case7 =>
    rw [parse, List.nil_append, parse_operands hposix hextra, parse]
  | case8 args =>
    simp only [parse_dashes, List.cons_append, List.nil_append]
  | case9 arg args hdashes harg hposix' => simp [hposix] at hposix'
  | case10 arg args hdashes harg hposix' ih =>
    rw [parse_operand harg, if_neg hposix'] at h ⊢
    have hmoved := ih h (extra ++ [arg]) fun arg' harg' => by
      rcases List.mem_append.1 harg' with hmem | hmem
      · exact hextra arg' hmem
      · rwa [List.mem_singleton.1 hmem]
    simpa using hmoved
  | case11 arg args hdashes harg ih =>
    simp only [parse_element hdashes (eq_false_of_ne_true harg), List.cons_append] at h ⊢
    rw [ih h extra hextra]

theorem parse_append (hposix : s.posix = true) (args : List Text) (cs : Text) :
    (parse s args cs).options ++ (parse s args cs).operands = args := by
  fun_induction parse s args cs with
  | case1 args c cs h rest ih | case2 args c cs h rest ih | case3 args c cs h rest ih
  | case4 args c cs h hcs rest ih => exact ih
  | case5 | case7 | case8 | case9 => rfl
  | case6 c cs h hcs arg args rest ih | case11 arg args hdashes harg rest ih =>
    exact congrArg (arg :: ·) ih
  | case10 arg args hdashes harg hposix' rest ih => exact absurd hposix hposix'

/-- **A second scan** of a command line without errors reads the same and moves nothing. -/
theorem scan_again (hplain : Plain s.optstring) (args : List Text) {fuel : ℕ}
    (hfuel : (args.map List.length).sum < fuel) {answers : List Answer} {v : Vars}
    {argv : List Text} (hscan : scan s.posix s.optstring fuel { opterr := s.opterr }
      (s.program :: args) = some (answers, v, argv)) (h : Accepted answers) :
    ∃ v', scan s.posix s.optstring fuel { opterr := s.opterr } argv = some (answers, v', argv) ∧
      v'.optind = v.optind := by
  obtain ⟨v₁, hscan₁, hoptind₁⟩ := scan_eq hplain args hfuel
  obtain ⟨rfl, rfl, rfl⟩ := by simpa using hscan.symm.trans hscan₁
  have hagain : parse s ((parse s args []).options ++ (parse s args []).operands) [] =
      parse s args [] := by
    cases hposix : s.posix with
    | true => rw [parse_append hposix]
    | false => exact parse_sorted hposix args [] h [] (by simp)
  have hlength := ((parse_perm s args []).map List.length).sum_nat
  obtain ⟨v₂, hscan₂, hoptind₂⟩ := scan_eq hplain
    ((parse s args []).options ++ (parse s args []).operands) (hlength.trans_lt hfuel)
  rw [hagain] at hscan₂ hoptind₂
  exact ⟨v₂, hscan₂, hoptind₂.trans hoptind₁.symm⟩

theorem scan_again_recorder : ∃ answers v argv v',
    scan false [119, 114, 58] 10 {} [[120], [97], [45, 119]] = some (answers, v, argv) ∧
      scan false [119, 114, 58] 10 {} argv = some (answers, v', argv) ∧ v'.optind = v.optind := by
  have hw : entry recorder.optstring 119 = some .no := by decide
  have hanswers : (parse recorder [[97], [45, 119]] []).answers = [⟨119, none, none⟩] := by
    rw [parse_operand (by decide), if_neg (by decide), parse_element (by decide) (by decide)]
    simp only [List.tail_cons]
    rw [parse_no _ _ hw, parse]
    rfl
  obtain ⟨v, hscan, -⟩ := scan_eq (s := recorder) (by decide) [[97], [45, 119]]
    (show _ < 10 by decide)
  obtain ⟨v', hagain, hoptind⟩ := scan_again (s := recorder) (by decide) [[97], [45, 119]]
    (by decide) hscan (by rw [hanswers]; unfold Accepted; decide)
  exact ⟨_, v, _, v', hscan, hagain, hoptind⟩

end Getopt

end AirspyHF
