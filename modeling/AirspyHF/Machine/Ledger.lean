import AirspyHF.Machine.Basic
import Mathlib.Data.Multiset.AddSub

/-!
# Ledgers of resources

A ledger is the multiset of the resources that a program holds.  A resource is given back with
`Ledger.release`, which is stuck on one that is not held, so a program that gets to its end gave
nothing back twice.  `Ledger.releaseAll_eq_some_iff` is the account of a program that gives back
several: what it held is what it gave back and what it still holds.

`Machine.run_account` is the account of a run whose steps leave something behind.
-/

namespace AirspyHF

variable {ρ : Type*} [DecidableEq ρ]

namespace Ledger

/-- A resource is given back. -/
def release (held : Multiset ρ) (r : ρ) : Option (Multiset ρ) :=
  if r ∈ held then some (held.erase r) else none

/-- Several resources are given back, in order. -/
def releaseAll (held : Multiset ρ) (rs : List ρ) : Option (Multiset ρ) := rs.foldlM release held

theorem release_eq_some_iff {held held' : Multiset ρ} {r : ρ} :
    release held r = some held' ↔ held = r ::ₘ held' := by
  constructor
  · intro h
    obtain ⟨hr, he⟩ := Option.ite_none_right_eq_some.1 h
    rw [← Option.some.inj he, Multiset.cons_erase hr]
  · rintro rfl
    rw [release, if_pos (Multiset.mem_cons_self ..), Multiset.erase_cons_head]

@[simp] theorem release_cons (held : Multiset ρ) (r : ρ) : release (r ::ₘ held) r = some held :=
  release_eq_some_iff.2 rfl

@[simp] theorem releaseAll_nil (held : Multiset ρ) : releaseAll held [] = some held := rfl

theorem releaseAll_cons (held : Multiset ρ) (r : ρ) (rs : List ρ) :
    releaseAll held (r :: rs) = (release held r).bind fun held => releaseAll held rs :=
  rfl

/-- **The account**: what was held is what was given back and what is still held. -/
theorem releaseAll_eq_some_iff {held held' : Multiset ρ} {rs : List ρ} :
    releaseAll held rs = some held' ↔ held = ↑rs + held' := by
  induction rs generalizing held with
  | nil =>
    rw [releaseAll_nil, Option.some_inj, Multiset.coe_nil, Multiset.zero_add]
  | cons r rs ih =>
    rw [releaseAll_cons, Option.bind_eq_some_iff, ← Multiset.cons_coe, Multiset.cons_add]
    constructor
    · rintro ⟨held₁, h₁, h₂⟩
      rw [release_eq_some_iff.1 h₁, ih.1 h₂]
    · intro h
      exact ⟨_, release_eq_some_iff.2 h, ih.2 rfl⟩

end Ledger

/-- **The account of a run**: if every step adds to what was left behind, and adds nothing exactly
when it meets the guard `G`, then so does a run, which adds nothing exactly when all its steps meet
the guard. -/
theorem Machine.run_account {S L ρ : Type*} {M : Machine S L} {G : S → L → Prop}
    {Leaves : S → Multiset ρ → Prop}
    (hstep : ∀ s left l s', Leaves s left → M.step s l = some s' →
      ∃ more, Leaves s' (more + left) ∧ (more = 0 ↔ G s l))
    {s s' : S} {left : Multiset ρ} {ls : List L} (hs : Leaves s left) (h : M.run s ls = some s') :
    ∃ more, Leaves s' (more + left) ∧ (more = 0 ↔ M.Meets G s ls) := by
  induction ls generalizing s left with
  | nil =>
    cases h
    refine ⟨0, ?_, iff_of_true rfl trivial⟩
    rwa [Multiset.zero_add]
  | cons l ls ih =>
    obtain ⟨s₁, h₁, h₂⟩ := run_cons.1 h
    obtain ⟨more, hmore, hl⟩ := hstep s left l s₁ hs h₁
    obtain ⟨more', hmore', hls⟩ := ih hmore h₂
    refine ⟨more' + more, ?_, ?_⟩
    · rwa [Multiset.add_assoc]
    · rw [← Multiset.card_eq_zero, Multiset.card_add, Nat.add_eq_zero_iff, Multiset.card_eq_zero,
        Multiset.card_eq_zero, hl, hls]
      constructor
      · rintro ⟨hrest, hfirst⟩
        refine ⟨hfirst, fun s₂ hs₂ => ?_⟩
        exact Option.some.inj (h₁.symm.trans hs₂) ▸ hrest
      · rintro ⟨hfirst, hrest⟩
        exact ⟨hrest s₁ h₁, hfirst⟩

end AirspyHF
