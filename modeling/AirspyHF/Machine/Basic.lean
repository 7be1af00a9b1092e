import Mathlib.Logic.Relation
import Mathlib.Data.List.Basic

/-!
# Executable labelled machines

Every dynamic model of this library (a sequence of driver calls, the streaming session, the
threads of the streaming engine) is a *machine*: a partial step function `S → L → Option S`.
A label names the actor that moves together with the choices its environment makes for it, so a
list of labels is one interleaving and the step function can be run on it.

## Main definitions

* `Machine S L` : a step function; `none` means that the label is not enabled.
* `Machine.run` : the state after a list of labels.
* `Machine.Reachable` : reachable by some list of labels.
* `Machine.Meets G` : every step of the run is taken in a state that satisfies the guard `G`.
* `Machine.Always P` : every state of the run satisfies `P`.
* `Machine.Refines` : every guarded step is matched by a run of another machine.

## Main results

* `Machine.invariant` : an inductive invariant holds in every reachable state.
* `Machine.Meets.invariant` : an invariant that only guarded steps preserve holds in every state
  of a run whose steps all meet the guard.
* `Machine.always_and_meets_iff` : a guard that is exact for every single step is exact for runs.
* `Machine.Refines.run` : a step-wise refinement maps runs to runs.
-/

namespace AirspyHF

/-- A labelled machine with states `S` and labels `L`. -/
structure Machine (S : Type*) (L : Type*) where
  /-- The state after performing a label, or `none` if the label is not enabled. -/
  step : S → L → Option S

namespace Machine

variable {S L : Type*} (M : Machine S L)

/-- The state after performing the labels in order. -/
def run : S → List L → Option S
  | s, [] => some s
  | s, l :: ls => (M.step s l).bind fun s' => run s' ls

/-- `s` is reachable from `s₀`. -/
def Reachable (s₀ s : S) : Prop := ∃ ls, M.run s₀ ls = some s

/-- Every step of the run from `s` along the labels is taken in a state that, together with the
label, satisfies the guard `G`. -/
def Meets (G : S → L → Prop) : S → List L → Prop
  | _, [] => True
  | s, l :: ls => G s l ∧ ∀ s', M.step s l = some s' → Meets G s' ls

/-- Every state of the run from `s` along the labels satisfies `P`. -/
def Always (P : S → Prop) : S → List L → Prop
  | s, [] => P s
  | s, l :: ls => P s ∧ ∀ s', M.step s l = some s' → Always P s' ls

instance decidableMeets (G : S → L → Prop) [∀ s l, Decidable (G s l)] :
    ∀ s ls, Decidable (M.Meets G s ls)
  | _, [] => isTrue trivial
  | s, l :: ls =>
    have : Decidable (∀ s', M.step s l = some s' → M.Meets G s' ls) :=
      match h : M.step s l with
      | none => isTrue nofun
      | some s' => @decidable_of_iff _ (M.Meets G s' ls) (by simp) (decidableMeets G s' ls)
    inferInstanceAs (Decidable (_ ∧ _))

instance decidableAlways (P : S → Prop) [∀ s, Decidable (P s)] :
    ∀ s ls, Decidable (M.Always P s ls)
  | s, [] => inferInstanceAs (Decidable (P s))
  | s, l :: ls =>
    have : Decidable (∀ s', M.step s l = some s' → M.Always P s' ls) :=
      match h : M.step s l with
      | none => isTrue nofun
      | some s' => @decidable_of_iff _ (M.Always P s' ls) (by simp) (decidableAlways P s' ls)
    inferInstanceAs (Decidable (_ ∧ _))

variable {M}

@[simp] theorem run_nil (s : S) : M.run s [] = some s := rfl

theorem run_cons {s s'' : S} {l : L} {ls : List L} :
    M.run s (l :: ls) = some s'' ↔ ∃ s', M.step s l = some s' ∧ M.run s' ls = some s'' := by
  simp [run, Option.bind_eq_some_iff]

theorem run_append {s s'' : S} {ls ls' : List L} :
    M.run s (ls ++ ls') = some s'' ↔ ∃ s', M.run s ls = some s' ∧ M.run s' ls' = some s'' := by
  induction ls generalizing s with
  | nil => simp
  | cons l ls ih =>
    simp only [List.cons_append, run_cons, ih]
    constructor
    · rintro ⟨s₁, h₁, s₂, h₂, h₃⟩; exact ⟨s₂, ⟨s₁, h₁, h₂⟩, h₃⟩
    · rintro ⟨s₂, ⟨s₁, h₁, h₂⟩, h₃⟩; exact ⟨s₁, h₁, s₂, h₂, h₃⟩

/-- A predicate that every step preserves holds at the end of every run that starts in it. -/
theorem run_invariant {I : S → Prop} (hstep : ∀ s l s', I s → M.step s l = some s' → I s')
    {s₀ s : S} {ls : List L} (h₀ : I s₀) (h : M.run s₀ ls = some s) : I s := by
  induction ls generalizing s₀ with
  | nil => cases h; exact h₀
  | cons l ls ih =>
    obtain ⟨s₁, h₁, h₂⟩ := run_cons.1 h
    exact ih (hstep _ _ _ h₀ h₁) h₂

/-- **Inductive invariants** hold in every reachable state. -/
theorem invariant {I : S → Prop} (hstep : ∀ s l s', I s → M.step s l = some s' → I s')
    {s₀ s : S} (h₀ : I s₀) (h : M.Reachable s₀ s) : I s := by
  obtain ⟨ls, hls⟩ := h
  exact run_invariant hstep h₀ hls

namespace Meets

variable {G : S → L → Prop}

/-- **Guarded invariants**: what every guarded step preserves holds at the end of every run whose
steps all meet the guard. -/
theorem invariant {I : S → Prop}
    (hstep : ∀ s l s', I s → G s l → M.step s l = some s' → I s') {s₀ s : S} {ls : List L}
    (hG : M.Meets G s₀ ls) (h₀ : I s₀) (h : M.run s₀ ls = some s) : I s := by
  induction ls generalizing s₀ with
  | nil => cases h; exact h₀
  | cons l ls ih =>
    obtain ⟨s₁, h₁, h₂⟩ := run_cons.1 h
    exact ih (hG.2 s₁ h₁) (hstep _ _ _ h₀ hG.1 h₁) h₂

/-- What every guarded step preserves holds in every state of a run whose steps all meet the
guard, and so does at every step what it entails there. -/
theorem always_and {I : S → Prop} {Q : S → L → Prop}
    (hstep : ∀ s l s', I s → G s l → M.step s l = some s' → I s')
    (hQ : ∀ s l, I s → G s l → Q s l) {s : S} {ls : List L} (hG : M.Meets G s ls) (h : I s) :
    M.Always I s ls ∧ M.Meets Q s ls := by
  induction ls generalizing s with
  | nil => exact ⟨h, trivial⟩
  | cons l ls ih =>
    have hnext := fun s' hs' => ih (hG.2 s' hs') (hstep s l s' h hG.1 hs')
    exact ⟨⟨h, fun s' hs' => (hnext s' hs').1⟩, hQ s l h hG.1, fun s' hs' => (hnext s' hs').2⟩

theorem and {G' : S → L → Prop} {s : S} {ls : List L} (h : M.Meets G s ls) (h' : M.Meets G' s ls) :
    M.Meets (fun s l => G s l ∧ G' s l) s ls := by
  induction ls generalizing s with
  | nil => trivial
  | cons l ls ih => exact ⟨⟨h.1, h'.1⟩, fun s' hs' => ih (h.2 s' hs') (h'.2 s' hs')⟩

theorem append {s s' : S} {ls ls' : List L} (hG : M.Meets G s (ls ++ ls'))
    (h : M.run s ls = some s') : M.Meets G s ls ∧ M.Meets G s' ls' := by
  induction ls generalizing s with
  | nil => exact ⟨trivial, Option.some.inj h ▸ hG⟩
  | cons l ls ih =>
    obtain ⟨s₁, h₁, h₂⟩ := run_cons.1 h
    refine ⟨⟨hG.1, fun s₂ hs₂ => ?_⟩, (ih (hG.2 s₁ h₁) h₂).2⟩
    obtain rfl := Option.some.inj (h₁.symm.trans hs₂)
    exact (ih (hG.2 s₁ h₁) h₂).1

end Meets

theorem Always.mono {P P' : S → Prop} (h : ∀ s, P s → P' s) {s : S} {ls : List L}
    (hP : M.Always P s ls) : M.Always P' s ls := by
  induction ls generalizing s with
  | nil => exact h s hP
  | cons l ls ih => exact ⟨h s hP.1, fun s' hs' => ih (hP.2 s' hs')⟩

theorem meets_true (s : S) (ls : List L) : M.Meets (fun _ _ => True) s ls := by
  induction ls generalizing s with
  | nil => trivial
  | cons l ls ih => exact ⟨trivial, fun s' _ => ih s'⟩

/-! ### Machines whose every label is enabled -/

/-- The machine of a total step function. -/
def ofFun (f : S → L → S) : Machine S L := ⟨fun s l => some (f s l)⟩

@[simp] theorem ofFun_step (f : S → L → S) (s : S) (l : L) : (ofFun f).step s l = some (f s l) :=
  rfl

@[simp] theorem ofFun_meets_nil (f : S → L → S) (G : S → L → Prop) (s : S) :
    (ofFun f).Meets G s [] ↔ True :=
  Iff.rfl

@[simp] theorem ofFun_meets_cons (f : S → L → S) (G : S → L → Prop) (s : S) (l : L) (ls : List L) :
    (ofFun f).Meets G s (l :: ls) ↔ G s l ∧ (ofFun f).Meets G (f s l) ls := by
  simp [Meets]

@[simp] theorem ofFun_always_nil (f : S → L → S) (P : S → Prop) (s : S) :
    (ofFun f).Always P s [] ↔ P s :=
  Iff.rfl

@[simp] theorem ofFun_always_cons (f : S → L → S) (P : S → Prop) (s : S) (l : L) (ls : List L) :
    (ofFun f).Always P s (l :: ls) ↔ P s ∧ (ofFun f).Always P (f s l) ls := by
  simp [Always]

theorem Always.head {P : S → Prop} {s : S} {ls : List L} (h : M.Always P s ls) : P s := by
  cases ls with
  | nil => exact h
  | cons l ls => exact h.1

theorem Always.last {P : S → Prop} {s s' : S} {ls : List L} (h : M.Always P s ls)
    (hs : M.run s ls = some s') : P s' := by
  induction ls generalizing s with
  | nil => exact Option.some.inj hs ▸ h
  | cons l ls ih =>
    obtain ⟨s₁, h₁, h₂⟩ := run_cons.1 hs
    exact ih (h.2 s₁ h₁) h₂

theorem Always.append {P : S → Prop} {s s' : S} {ls ls' : List L} (h : M.Always P s (ls ++ ls'))
    (hs : M.run s ls = some s') : M.Always P s ls ∧ M.Always P s' ls' := by
  induction ls generalizing s with
  | nil => exact ⟨h.head, Option.some.inj hs ▸ h⟩
  | cons l ls ih =>
    obtain ⟨s₁, h₁, h₂⟩ := run_cons.1 hs
    refine ⟨⟨h.1, fun s₂ hs₂ => ?_⟩, (ih (h.2 s₁ h₁) h₂).2⟩
    obtain rfl := Option.some.inj (h₁.symm.trans hs₂)
    exact (ih (h.2 s₁ h₁) h₂).1

theorem Always.and {P P' : S → Prop} {s : S} {ls : List L} (h : M.Always P s ls)
    (h' : M.Always P' s ls) : M.Always (fun s => P s ∧ P' s) s ls := by
  induction ls generalizing s with
  | nil => exact ⟨h, h'⟩
  | cons l ls ih => exact ⟨⟨h.1, h'.1⟩, fun s' hs' => ih (h.2 s' hs') (h'.2 s' hs')⟩

/-- What a step keeps if the state after it satisfies `P` holds at the end of every run that stays
in `P`. -/
theorem Always.invariant {I P : S → Prop}
    (hstep : ∀ s l s', I s → P s' → M.step s l = some s' → I s') {s₀ s : S} {ls : List L}
    (hP : M.Always P s₀ ls) (h₀ : I s₀) (h : M.run s₀ ls = some s) : I s := by
  induction ls generalizing s₀ with
  | nil => cases h; exact h₀
  | cons l ls ih =>
    obtain ⟨s₁, h₁, h₂⟩ := run_cons.1 h
    exact ih (hP.2 s₁ h₁) (hstep _ _ _ h₀ (hP.2 s₁ h₁).head h₁) h₂

/-- **Exactly guarded invariants**: if a step taken under `F` keeps `P` and satisfies `Q` exactly
when it satisfies `G`, a run whose steps are all taken under `F` stays in `P` with steps that all
satisfy `Q` exactly when its steps all satisfy `G`. -/
theorem always_and_meets_iff {f : S → L → S} {P : S → Prop} {F Q G : S → L → Prop}
    (hstep : ∀ s l, P s → F s l → (P (f s l) ∧ Q s l ↔ G s l)) {s : S} {ls : List L}
    (hF : (ofFun f).Meets F s ls) (h : P s) :
    (ofFun f).Always P s ls ∧ (ofFun f).Meets Q s ls ↔ (ofFun f).Meets G s ls := by
  induction ls generalizing s with
  | nil => simp [h]
  | cons l ls ih =>
    obtain ⟨hl, hls⟩ := (ofFun_meets_cons ..).1 hF
    simp only [ofFun_always_cons, ofFun_meets_cons, h, true_and]
    constructor
    · rintro ⟨ha, hq, hqs⟩
      exact ⟨(hstep s l h hl).1 ⟨ha.head, hq⟩, (ih hls ha.head).1 ⟨ha, hqs⟩⟩
    · rintro ⟨hg, hgs⟩
      obtain ⟨hp, hq⟩ := (hstep s l h hl).2 hg
      obtain ⟨ha, hqs⟩ := (ih hls hp).2 hgs
      exact ⟨ha, hq, hqs⟩

/-- Exactly guarded invariants, when nothing else is asked of a step. -/
theorem always_iff_meets {f : S → L → S} {P : S → Prop} {F G : S → L → Prop}
    (hstep : ∀ s l, P s → F s l → (P (f s l) ↔ G s l)) {s : S} {ls : List L}
    (hF : (ofFun f).Meets F s ls) (h : P s) :
    (ofFun f).Always P s ls ↔ (ofFun f).Meets G s ls := by
  have := always_and_meets_iff (Q := fun _ _ => True)
    (fun s l hp hf => (and_iff_left trivial).trans (hstep s l hp hf)) hF h
  rwa [and_iff_left (meets_true s ls)] at this

theorem ofFun_run (f : S → L → S) (s : S) (ls : List L) :
    (ofFun f).run s ls = some (ls.foldl f s) := by
  induction ls generalizing s with
  | nil => rfl
  | cons l ls ih => exact ih (f s l)

/-! ### Refinement -/

/-- As long as its steps satisfy the guard `G`, `M` refines `A` through the relation `R`: what `M`
does in one step, `A` does in some number of steps, possibly none. -/
def Refines {S' L' : Type*} (M : Machine S L) (A : Machine S' L') (R : S → S' → Prop)
    (G : S → L → Prop) : Prop :=
  ∀ s a l s', R s a → G s l → M.step s l = some s' → ∃ ls a', A.run a ls = some a' ∧ R s' a'

/-- **A refinement maps runs to runs.** -/
theorem Refines.run {S' L' : Type*} {A : Machine S' L'} {R : S → S' → Prop} {G : S → L → Prop}
    (hr : Refines M A R G) {s s' : S} {a : S'} {ls : List L} (hR : R s a) (hG : M.Meets G s ls)
    (h : M.run s ls = some s') : ∃ ls' a', A.run a ls' = some a' ∧ R s' a' := by
  induction ls generalizing s a with
  | nil =>
    cases h
    exact ⟨[], a, rfl, hR⟩
  | cons l ls ih =>
    obtain ⟨s₁, h₁, h₂⟩ := run_cons.1 h
    obtain ⟨ls₁, a₁, ha₁, hR₁⟩ := hr s a l s₁ hR hG.1 h₁
    obtain ⟨ls₂, a₂, ha₂, hR₂⟩ := ih hR₁ (hG.2 s₁ h₁) h₂
    exact ⟨ls₁ ++ ls₂, a₂, run_append.2 ⟨a₁, ha₁, ha₂⟩, hR₂⟩

end Machine

end AirspyHF
