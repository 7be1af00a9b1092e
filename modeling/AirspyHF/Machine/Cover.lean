import Mathlib.Order.Bounds.Basic
import Mathlib.Data.List.Basic

/-!
# Covering a request with one of several levels

A level covers a request if it is the least one that reaches it.  A request above all levels is
covered by the greatest, as well as that can be done.

* `Covers.mono` : a higher request is covered by a level that is at least as high.
* `covers_of_findIdx?` : in an ascending list the first level that reaches a request covers it.
-/

namespace AirspyHF

variable {α : Type*} [LinearOrder α]

/-- The level `s` of `S` covers the request `a`. -/
def Covers (S : Set α) (a s : α) : Prop :=
  IsLeast {x ∈ S | a ≤ x} s ∨ (∀ x ∈ S, x < a) ∧ IsGreatest S s

variable {S : Set α} {a b s s' : α}

theorem Covers.refl (h : s ∈ S) : Covers S s s := .inl ⟨⟨h, le_rfl⟩, fun _ hx => hx.2⟩

/-- **A higher request is covered by a higher level.** -/
theorem Covers.mono (hab : a ≤ b) (ha : Covers S a s) (hb : Covers S b s') : s ≤ s' := by
  rcases ha with ha | ⟨hall, ha⟩
  · rcases hb with hb | ⟨-, hb⟩
    · exact ha.2 ⟨hb.1.1, hab.trans hb.1.2⟩
    · exact hb.2 ha.1.1
  · rcases hb with hb | ⟨-, hb⟩
    · exact absurd (hab.trans hb.1.2) (not_le.2 (hall s' hb.1.1))
    · exact hb.2 ha.1

theorem Covers.unique (h : Covers S a s) (h' : Covers S a s') : s = s' :=
  le_antisymm (h.mono le_rfl h') (h'.mono le_rfl h)

theorem covers_iff_of_forall_lt (hall : ∀ x ∈ S, x < a) : Covers S a s ↔ IsGreatest S s := by
  constructor
  · rintro (h | h)
    · exact absurd h.1.2 (not_le.2 (hall s h.1.1))
    · exact h.2
  · exact fun h => .inr ⟨hall, h⟩

theorem covers_of_findIdx? {l : List α} (hl : l.Pairwise (· ≤ ·)) {i : ℕ}
    (hi : l.findIdx? (fun x => decide (a ≤ x)) = some i) :
    ∃ s, l[i]? = some s ∧ Covers {x | x ∈ l} a s := by
  obtain ⟨hlt, hreach, hbefore⟩ := List.findIdx?_eq_some_iff_getElem.1 hi
  refine ⟨l[i], List.getElem?_eq_getElem hlt, .inl ⟨⟨List.getElem_mem hlt, ?_⟩, ?_⟩⟩
  · exact of_decide_eq_true hreach
  · rintro x ⟨hx, hax⟩
    obtain ⟨j, hj, rfl⟩ := List.getElem_of_mem hx
    -- a level that reaches the request does not come before the first one
    have hij : i ≤ j := by
      by_contra hji
      exact hbefore j (not_le.1 hji) (decide_eq_true hax)
    rcases hij.eq_or_lt with rfl | hij
    · exact le_rfl
    · exact List.pairwise_iff_getElem.1 hl i j hlt hj hij

end AirspyHF
