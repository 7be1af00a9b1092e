import Mathlib.Data.List.Basic

/-!
# Programs that may get stuck, with what they did before

A `Traced` program has events and, unless it gets stuck, a result.  A stuck program has the events
up to there.

* `Traced.all_bind` : all events of a program in two parts pass a test if those of the first part do
  and, where it does not get stuck, those of the second.
* `Traced.result_fold`, `Traced.fold_concat` : a loop, and its last turn.
-/

namespace AirspyHF

/-- A program that may get stuck, with its events. -/
structure Traced (ε α : Type*) where
  /-- The events, in order. -/
  events : List ε
  /-- The result, if there is one. -/
  result : Option α

namespace Traced

variable {ε α β : Type*}

/-- A program without events. -/
def lift (o : Option α) : Traced ε α := ⟨[], o⟩

/-- A program of one event. -/
def emit (e : ε) (o : Option α) : Traced ε α := ⟨[e], o⟩

/-- One program, and then another that depends on its result. -/
def bind (x : Traced ε α) (f : α → Traced ε β) : Traced ε β where
  events := x.events ++ x.result.elim [] fun a => (f a).events
  result := x.result.bind fun a => (f a).result

/-- A loop over a list. -/
def fold {σ : Type*} (f : σ → α → Traced ε σ) (s : σ) : List α → Traced ε σ
  | [] => lift (some s)
  | a :: l => (f s a).bind fun s => fold f s l

/-- All events pass a test. -/
def All (P : ε → Prop) (x : Traced ε α) : Prop := ∀ e ∈ x.events, P e

@[simp] theorem result_lift (o : Option α) : (lift o : Traced ε α).result = o := rfl

@[simp] theorem result_emit (e : ε) (o : Option α) : (emit e o).result = o := rfl

@[simp] theorem result_bind (x : Traced ε α) (f : α → Traced ε β) :
    (x.bind f).result = x.result.bind fun a => (f a).result := rfl

theorem events_bind_lift (x : Traced ε α) (f : α → Option β) :
    (x.bind fun a => lift (f a)).events = x.events := by
  cases hr : x.result <;> simp [bind, lift, hr]

variable {P : ε → Prop} {x : Traced ε α} {f : α → Traced ε β}

@[simp] theorem all_lift (o : Option α) : (lift o : Traced ε α).All P := List.forall_mem_nil _

@[simp] theorem all_emit (e : ε) (o : Option α) : (emit e o).All P ↔ P e :=
  List.forall_mem_singleton

theorem all_bind : (x.bind f).All P ↔ x.All P ∧ ∀ a ∈ x.result, (f a).All P := by
  rw [All, bind, List.forall_mem_append]
  refine and_congr_right fun _ => ?_
  cases x.result with
  | none => simp
  | some a => simp [All]

theorem all_bind_of_result {a : α} (h : x.result = some a) :
    (x.bind f).All P ↔ x.All P ∧ (f a).All P := by
  rw [all_bind, h]
  simp

/-! ### Loops -/

variable {σ : Type*} (step : σ → α → Traced ε σ)

theorem result_fold (s : σ) (l : List α) :
    (fold step s l).result = l.foldlM (fun s a => (step s a).result) s := by
  induction l generalizing s with
  | nil => rfl
  | cons a l ih => simp only [fold, result_bind, ih, List.foldlM_cons, Option.bind_eq_bind]

theorem fold_concat {s s' : σ} {l : List α} (h : (fold step s l).result = some s') (a : α) :
    (fold step s (l ++ [a])).result = (step s' a).result ∧
      (fold step s (l ++ [a])).events = (fold step s l).events ++ (step s' a).events := by
  induction l generalizing s with
  | nil =>
    obtain rfl : s = s' := Option.some.inj h
    cases hr : (step s a).result <;> simp [fold, bind, lift, hr]
  | cons a' l ih =>
    rw [fold, result_bind, Option.bind_eq_some_iff] at h
    obtain ⟨t, ht, hrest⟩ := h
    obtain ⟨hresult, hevents⟩ := ih hrest
    constructor
    · rw [List.cons_append, fold, result_bind, ht, Option.bind_some, hresult]
    · rw [List.cons_append, fold, fold, bind, bind, ht]
      simp only [Option.elim_some, hevents, List.append_assoc]

end Traced

end AirspyHF
