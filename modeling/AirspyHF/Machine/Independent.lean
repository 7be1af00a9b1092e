import AirspyHF.Machine.Basic

/-!
# Independent labels

The labels of a machine have keys, and two labels with different keys may be performed in either
order.  Then a run depends only on the labels of every key, in their order.

* `Machine.Independent` : labels with different keys commute.
* `Machine.Independent.run_eq` : two lists with the same labels of every key make the same run.
-/

namespace AirspyHF

namespace Machine

variable {S L K : Type*} {M : Machine S L} {key : L → K}

/-- Labels with different keys commute. -/
def Independent (M : Machine S L) (key : L → K) : Prop :=
  ∀ s a b, key a ≠ key b → M.run s [a, b] = M.run s [b, a]

theorem run_append_eq (s : S) (ls ls' : List L) :
    M.run s (ls ++ ls') = (M.run s ls).bind fun s' => M.run s' ls' := by
  induction ls generalizing s with
  | nil => rfl
  | cons l ls ih =>
    rw [List.cons_append, run, run, Option.bind_assoc]
    simp only [ih]

/-- The first label of its key can be performed first. -/
theorem Independent.run_front (h : M.Independent key) {a : L} {before : List L}
    (hbefore : ∀ b ∈ before, key b ≠ key a) (s : S) (after : List L) :
    M.run s (before ++ a :: after) = M.run s (a :: (before ++ after)) := by
  induction before generalizing s with
  | nil => rfl
  | cons b before ih =>
    have hrest := ih fun b' hb' => hbefore b' (List.mem_cons_of_mem _ hb')
    have hswap := h s b a (hbefore b List.mem_cons_self)
    calc
      M.run s (b :: before ++ a :: after)
        = M.run s (b :: a :: (before ++ after)) := by
          rw [List.cons_append, run, run]
          simp only [hrest]
      _ = (M.run s [b, a]).bind fun s' => M.run s' (before ++ after) :=
          run_append_eq s [b, a] _
      _ = M.run s (a :: (b :: before ++ after)) := by
          rw [hswap]
          exact (run_append_eq s [a, b] _).symm

section

variable [DecidableEq K]

/-- The labels of one key, in their order. -/
def ofKey (key : L → K) (k : K) (ls : List L) : List L := ls.filter fun l => key l = k

/-- **Runs of independent labels** depend only on the labels of every key. -/
theorem Independent.run_eq (h : M.Independent key) {ls ls' : List L}
    (hkeys : ∀ k, ofKey key k ls = ofKey key k ls') (s : S) : M.run s ls = M.run s ls' := by
  induction ls generalizing s ls' with
  | nil =>
    rcases ls' with _ | ⟨b, ls'⟩
    · rfl
    · have hb := hkeys (key b)
      simp [ofKey] at hb
  | cons a ls ih =>
    -- the first label of the key of `a` in the other list is `a` itself
    have ha : ofKey key (key a) ls' = a :: ofKey key (key a) ls := by
      rw [← hkeys (key a), ofKey, List.filter_cons_of_pos (by simp)]
      rfl
    obtain ⟨before, after, rfl, hbefore, -, hafter⟩ := List.filter_eq_cons_iff.1 ha
    have hne : ∀ b ∈ before, key b ≠ key a := by
      intro b hb
      simpa using hbefore b hb
    have hrest : ∀ k, ofKey key k ls = ofKey key k (before ++ after) := by
      intro k
      have hk := hkeys k
      by_cases hka : key a = k
      · subst hka
        have hnone : before.filter (fun l => key l = key a) = [] :=
          List.filter_eq_nil_iff.2 hbefore
        rw [ofKey, ofKey, List.filter_append, hnone, List.nil_append, hafter]
        rfl
      · simpa [ofKey, hka] using hk
    rw [h.run_front hne, run, run]
    simp only [ih hrest]

end

end Machine

end AirspyHF
