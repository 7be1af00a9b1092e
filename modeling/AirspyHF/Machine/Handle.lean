import Mathlib.Data.List.Basic

/-!
# Threads behind one handle

A component starts threads one after the other and keeps a handle for the last one, with a flag
that says whether it is still to be joined.  `OneHandle` says that no other thread runs.  It holds
after a new thread is created if all earlier ones have exited (`OneHandle.create`), every thread
keeps it as it moves (`OneHandle.move`), and then joining the thread of the handle is waiting for
all threads (`OneHandle.allDone_of_joinable`).
-/

namespace AirspyHF

section

variable {Pc : Type*} {done : Pc} {threads : List Pc} {handle : Option ℕ} {running : Bool}

/-- All threads have exited. -/
def AllDone (done : Pc) (threads : List Pc) : Prop := ∀ pc ∈ threads, pc = done

instance [DecidableEq Pc] (done : Pc) (threads : List Pc) : Decidable (AllDone done threads) :=
  inferInstanceAs (Decidable (∀ pc ∈ threads, _))

/-- At most one thread has not exited. -/
def AtMostOne (done : Pc) (threads : List Pc) : Prop :=
  ∀ (t t' : ℕ) (pc pc' : Pc), threads[t]? = some pc → threads[t']? = some pc' → pc ≠ done →
    pc' ≠ done → t = t'

instance [DecidableEq Pc] (done : Pc) (threads : List Pc) : Decidable (AtMostOne done threads) :=
  decidable_of_iff (∀ t t' : Fin threads.length, threads[t] ≠ done → threads[t'] ≠ done → t = t')
    ⟨fun h t t' pc pc' ht ht' hpc hpc' => by
      obtain ⟨hlt, rfl⟩ := List.getElem?_eq_some_iff.1 ht
      obtain ⟨hlt', rfl⟩ := List.getElem?_eq_some_iff.1 ht'
      exact congrArg Fin.val (h ⟨t, hlt⟩ ⟨t', hlt'⟩ hpc hpc'),
    fun h t t' hpc hpc' => Fin.ext (h t t' _ _ (List.getElem?_eq_getElem t.isLt)
      (List.getElem?_eq_getElem t'.isLt) hpc hpc')⟩

/-- The thread that the handle denotes has exited. -/
def Joinable (done : Pc) (threads : List Pc) (handle : Option ℕ) : Prop :=
  (handle.bind fun t => threads[t]?) = some done

instance [DecidableEq Pc] (done : Pc) (threads : List Pc) (handle : Option ℕ) :
    Decidable (Joinable done threads handle) :=
  inferInstanceAs (Decidable (_ = _))

/-- A thread that runs is the one of the handle, and is still to be joined. -/
def OneHandle (done : Pc) (threads : List Pc) (handle : Option ℕ) (running : Bool) : Prop :=
  ∀ (t : ℕ) (pc : Pc), threads[t]? = some pc → pc ≠ done → handle = some t ∧ running = true

theorem AllDone.oneHandle (h : AllDone done threads) : OneHandle done threads handle running :=
  fun _ pc ht hpc => absurd (h pc (List.mem_of_getElem? ht)) hpc

namespace AtMostOne

theorem eq_done_of_ne (h : AtMostOne done threads) {t t' : ℕ} {pc pc' : Pc}
    (ht : threads[t]? = some pc) (hpc : pc ≠ done) (ht' : threads[t']? = some pc') (hne : t ≠ t') :
    pc' = done :=
  by_contra fun hpc' => hne (h t t' pc pc' ht ht' hpc hpc')

theorem forall_set (h : AtMostOne done threads) {P : ℕ → Pc → Prop} {t : ℕ} {pc pc' : Pc}
    (ht : threads[t]? = some pc) (hpc : pc ≠ done) (hdone : ∀ t, P t done) (hmoved : P t pc') :
    ∀ t' pc'', (threads.set t pc')[t']? = some pc'' → P t' pc'' := by
  intro t' pc'' ht'
  by_cases he : t = t'
  · subst he
    rw [List.getElem?_set_self (List.getElem?_eq_some_iff.1 ht).1] at ht'
    exact Option.some.inj ht' ▸ hmoved
  · rw [List.getElem?_set_ne he] at ht'
    exact h.eq_done_of_ne ht hpc ht' he ▸ hdone t'

end AtMostOne

namespace OneHandle

theorem atMostOne (h : OneHandle done threads handle running) : AtMostOne done threads :=
  fun t t' pc pc' ht ht' hpc hpc' =>
    Option.some.inj ((h t pc ht hpc).1.symm.trans (h t' pc' ht' hpc').1)

theorem create (h : AllDone done threads) (pc : Pc) :
    OneHandle done (threads ++ [pc]) (some threads.length) true := by
  intro t pc' ht hpc
  rcases Nat.lt_or_ge t threads.length with hlt | hge
  · rw [List.getElem?_append_left hlt] at ht
    exact absurd (h pc' (List.mem_of_getElem? ht)) hpc
  · have hlt := (List.getElem?_eq_some_iff.1 ht).1
    rw [List.length_append, List.length_singleton] at hlt
    obtain rfl : t = threads.length := by omega
    exact ⟨rfl, rfl⟩

theorem move (h : OneHandle done threads handle running) {t : ℕ} {pc : Pc}
    (ht : threads[t]? = some pc) (hpc : pc ≠ done) (pc' : Pc) :
    OneHandle done (threads.set t pc') handle running := by
  intro t' pc'' ht' hpc'
  by_cases he : t = t'
  · exact he ▸ h t pc ht hpc
  · rw [List.getElem?_set_ne he] at ht'
    exact h t' pc'' ht' hpc'

theorem allDone_of_joinable (h : OneHandle done threads handle running)
    (hj : Joinable done threads handle) : AllDone done threads := by
  intro pc hpc
  obtain ⟨t, ht⟩ := List.mem_iff_getElem?.1 hpc
  by_contra hne
  rw [Joinable, (h t pc ht hne).1, Option.bind_some, ht] at hj
  exact hne (Option.some.inj hj)

theorem allDone_of_not_running (h : OneHandle done threads handle running)
    (hr : running = false) : AllDone done threads := by
  intro pc hpc
  obtain ⟨t, ht⟩ := List.mem_iff_getElem?.1 hpc
  by_contra hne
  exact absurd (hr.symm.trans (h t pc ht hne).2) nofun

end OneHandle

end

end AirspyHF
