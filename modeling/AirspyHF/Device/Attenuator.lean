import AirspyHF.Device.Tables
import AirspyHF.Machine.Cover

/-!
# The attenuator

`airspyhf_set_att` looks for the first step of the table that is at least the requested attenuation,
and sends its index.

* `AttTable.sent_of_mem` : a step of the table is sent as it is.
* `AttTable.selects_iff` : the step that is sent covers the request, unless the request is above all
  steps: then the index is left at zero, and the smallest step is sent.
-/

namespace AirspyHF

/-- The value of a finite `float`. -/
def C.ofFloatBits (x : UInt32) : ℚ :=
  let exponent : ℕ := x.toNat / 2 ^ 23 % 2 ^ 8
  let mantissa : ℕ := x.toNat % 2 ^ 23
  let magnitude : ℚ :=
    if exponent = 0 then mantissa / 2 ^ 149
    else ((2 ^ 23 + mantissa : ℕ) : ℚ) * 2 ^ exponent / 2 ^ 150
  if x.toNat < 2 ^ 31 then magnitude else -magnitude

/-- The table of attenuator steps. -/
structure AttTable (α : Type*) where
  /-- `supported_att_step_count`. -/
  count : UInt32
  /-- `supported_att_steps`. -/
  steps : List α
  /-- The table holds the announced number of entries. -/
  count_le_steps : count.toNat ≤ steps.length

/-- The table of steps as it is in memory. -/
def AttMemory.table (t : AttMemory) : AttTable ℚ where
  count := t.count
  steps := (List.range t.count.toNat).map fun i => C.ofFloatBits (t.steps.word i)
  count_le_steps := by simp

namespace AttTable

variable {α : Type*} (t : AttTable α)

/-- The entries of the table. -/
def entries : List α := t.steps.take t.count.toNat

@[simp] theorem length_entries : t.entries.length = t.count.toNat := by
  simp [entries, t.count_le_steps]

/-- The steps of the Airspy HF+ Discovery. -/
def discovery : AttTable ℚ where
  count := defaultAttStepCount
  steps := (List.range defaultAttStepCount.toNat).map fun i => (i * defaultAttStepIncrement : ℕ)
  count_le_steps := by simp

/-- `airspyhf_get_att_steps`: the number of the entries, or as many as are asked for. -/
def getAttSteps (len : UInt32) : Option (UInt32 ⊕ List α) :=
  if len = 0 then some (.inl t.count)
  else if len ≤ t.count then some (.inr (t.steps.take len.toNat))
  else none

section

variable [LinearOrder α]

/-- `att_index`: the index of the first step that is at least the request. -/
def attIndex (att : α) : UInt16 :=
  ((t.entries.findIdx? fun x => decide (att ≤ x)).map UInt16.ofNat).getD 0

/-- The request of `airspyhf_set_att`. -/
def setAttRequest (att : α) : Request := ⟨.setAtt, t.attIndex att, 0, [], 0⟩

/-- `airspyhf_set_att`. -/
def setAtt (att : α) (w : World) : Status × World :=
  (if (w.exchange (t.setAttRequest att)).result < 0 then .error else .success,
    w.issue (t.setAttRequest att))

/-- The step whose index is sent. -/
def sent (att : α) : Option α := t.entries[(t.setAttRequest att).value.toNat]?

/-- **What the selection is for**: more attenuation is requested, and no less is sent; the steps
cover the requests. -/
def Selects (a b : α) : Prop :=
  ∃ x y, t.sent a = some x ∧ t.sent b = some y ∧ x ≤ y ∧
    Covers {s | s ∈ t.entries} a x ∧ Covers {s | s ∈ t.entries} b y

end

end AttTable

/-- `airspyhf_set_hf_att`, which is told the index. -/
def setHfAtt (attIndex : UInt8) (w : World) : Status × World :=
  let q : Request := ⟨.setAtt, attIndex.toUInt16, 0, [], 0⟩
  (if (w.exchange q).result < 0 then .error else .success, w.issue q)

/-! ### The selection -/

namespace AttTable

variable {α : Type*} [LinearOrder α] {t : AttTable α}

theorem sent_of_findIdx? (hsize : t.count.toNat ≤ 65536) {att : α} {i : ℕ}
    (hi : t.entries.findIdx? (fun x => decide (att ≤ x)) = some i) :
    t.sent att = t.entries[i]? := by
  have hlt : i < t.entries.length := (List.findIdx?_eq_some_iff_getElem.1 hi).1
  rw [length_entries] at hlt
  have hindex : t.attIndex att = UInt16.ofNat i := by
    rw [attIndex, hi]
    rfl
  rw [sent, setAttRequest, hindex, UInt16.toNat_ofNat', Nat.mod_eq_of_lt (by omega)]

theorem sent_of_forall_lt {att : α} (hall : ∀ x ∈ t.entries, x < att) :
    t.sent att = t.entries.head? := by
  have hnone : t.entries.findIdx? (fun x => decide (att ≤ x)) = none := by
    rw [List.findIdx?_eq_none_iff]
    intro x hx
    exact decide_eq_false (not_le.2 (hall x hx))
  rw [sent, setAttRequest, attIndex, hnone, List.head?_eq_getElem?]
  rfl

variable (hsize : t.count.toNat ≤ 65536) (hascending : t.entries.Pairwise (· ≤ ·))
include hsize hascending

theorem covers_sent {att : α} (hreach : ∃ x ∈ t.entries, att ≤ x) :
    ∃ s, t.sent att = some s ∧ Covers {x | x ∈ t.entries} att s := by
  obtain ⟨x, hx, hle⟩ := hreach
  cases hi : t.entries.findIdx? (fun x => decide (att ≤ x)) with
  | none =>
    rw [List.findIdx?_eq_none_iff] at hi
    exact absurd hle (of_decide_eq_false (hi x hx))
  | some i =>
    rw [sent_of_findIdx? hsize hi]
    exact covers_of_findIdx? hascending hi

/-- **A step that the driver reported is sent as it is.** -/
theorem sent_of_mem {len : UInt32} {steps : List α} (hsteps : t.getAttSteps len = some (.inr steps))
    {s : α} (hs : s ∈ steps) : t.sent s = some s := by
  have hmem : s ∈ t.entries := by
    rw [getAttSteps] at hsteps
    split at hsteps
    · cases hsteps
    · split at hsteps
      · rename_i hlen
        rw [Option.some_inj, Sum.inr.injEq] at hsteps
        rw [← hsteps] at hs
        exact List.take_subset_take_left _ (UInt32.le_iff_toNat_le.1 hlen) hs
      · cases hsteps
  obtain ⟨s', hsent, hcovers⟩ := covers_sent hsize hascending ⟨s, hmem, le_rfl⟩
  rw [hsent, (Covers.refl (S := {x | x ∈ t.entries}) hmem).unique hcovers]

omit hsize in
/-- The smallest step is sent for a request above all steps, and covers it if all are equal. -/
theorem covers_sent_of_forall_lt (hne : 0 < t.count.toNat) {att : α}
    (hall : ∀ x ∈ t.entries, x < att) :
    ∃ s ∈ t.entries, t.sent att = some s ∧ (Covers {x | x ∈ t.entries} att s ↔
      ∀ x ∈ t.entries, ∀ y ∈ t.entries, x = y) := by
  obtain ⟨s, l, hentries⟩ : ∃ s l, t.entries = s :: l :=
    List.exists_cons_of_length_pos (by rwa [length_entries])
  have hmem : s ∈ t.entries := hentries ▸ List.mem_cons_self
  have hleast : ∀ x ∈ t.entries, s ≤ x := by
    intro x hx
    rw [hentries] at hx hascending
    rcases List.mem_cons.1 hx with rfl | hx
    · exact le_rfl
    · exact (List.pairwise_cons.1 hascending).1 x hx
  refine ⟨s, hmem, ?_, ?_⟩
  · rw [sent_of_forall_lt hall, hentries, List.head?_cons]
  · rw [covers_iff_of_forall_lt (S := {x | x ∈ t.entries}) hall]
    constructor
    · intro hgreatest x hx y hy
      exact ((hgreatest.2 hx).antisymm (hleast x hx)).trans
        ((hleast y hy).antisymm (hgreatest.2 hy))
    · intro hequal
      exact ⟨hmem, fun x hx => (hequal x hx s hmem).le⟩

/-- **When the selection is as it should be**: no request is above all steps, or all steps are the
same. -/
theorem selects_iff (hne : 0 < t.count.toNat) {a b : α} (hab : a ≤ b) :
    t.Selects a b ↔
      (∃ x ∈ t.entries, b ≤ x) ∨ ∀ x ∈ t.entries, ∀ y ∈ t.entries, x = y := by
  -- a request is covered if some step reaches it, or if all are equal
  have hcovered : ∀ att, ((∃ x ∈ t.entries, att ≤ x) ∨
      ∀ x ∈ t.entries, ∀ y ∈ t.entries, x = y) →
      ∃ s, t.sent att = some s ∧ Covers {x | x ∈ t.entries} att s := by
    intro att hatt
    by_cases hreach : ∃ x ∈ t.entries, att ≤ x
    · exact covers_sent hsize hascending hreach
    · have hall : ∀ x ∈ t.entries, x < att := by simpa using hreach
      obtain ⟨s, -, hsent, hcovers⟩ := covers_sent_of_forall_lt hascending hne hall
      exact ⟨s, hsent, hcovers.2 (hatt.resolve_left hreach)⟩
  constructor
  · rintro ⟨x, y, -, hb, -, -, hcovers⟩
    by_cases hreach : ∃ x ∈ t.entries, b ≤ x
    · exact .inl hreach
    · have hall : ∀ x ∈ t.entries, x < b := by simpa using hreach
      obtain ⟨s, -, hsent, hiff⟩ := covers_sent_of_forall_lt hascending hne hall
      rw [hb, Option.some_inj] at hsent
      exact .inr (hiff.1 (hsent ▸ hcovers))
  · intro h
    obtain ⟨y, hb, hy⟩ := hcovered b h
    obtain ⟨x, ha, hx⟩ := hcovered a (h.imp_left fun ⟨s, hs, hle⟩ => ⟨s, hs, hab.trans hle⟩)
    exact ⟨x, y, ha, hb, hx.mono hab hy, hx, hy⟩

omit hsize hascending in
/-- The two calls agree about the index of a step. -/
theorem setAtt_eq_setHfAtt (hsize : t.count.toNat ≤ 256) (hascending : t.entries.Pairwise (· < ·))
    {i : ℕ} {s : α} (hi : t.entries[i]? = some s) (w : World) :
    t.setAtt s w = setHfAtt (UInt8.ofNat i) w := by
  obtain ⟨hlt, rfl⟩ := List.getElem?_eq_some_iff.1 hi
  have hfirst : t.entries.findIdx? (fun x => decide (t.entries[i] ≤ x)) = some i := by
    rw [List.findIdx?_eq_some_iff_getElem]
    refine ⟨hlt, decide_eq_true le_rfl, ?_⟩
    intro j hji
    rw [decide_eq_true_iff, not_le]
    exact List.pairwise_iff_getElem.1 hascending j i (hji.trans hlt) hlt hji
  have hindex : t.attIndex t.entries[i] = (UInt8.ofNat i).toUInt16 := by
    rw [length_entries] at hlt
    rw [attIndex, hfirst, ← UInt16.toNat_inj]
    simp
    omega
  rw [setAtt, setHfAtt, setAttRequest, hindex]

end AttTable

/-! ### The default table -/

theorem leWord_leBytes (x : UInt32) :
    C.leWord ((leBytes x).getD 0 0) ((leBytes x).getD 1 0) ((leBytes x).getD 2 0)
      ((leBytes x).getD 3 0) = x := by
  obtain ⟨b₀, b₁, b₂, b₃, hbytes, hword⟩ := exists_leBytes x
  rw [hbytes]
  exact hword

theorem ofFloatBits_floatBits : ∀ i < 9, C.ofFloatBits (C.floatBits (i * 6)) = (i * 6 : ℕ) := by
  decide +kernel

/-- The default steps are in memory as they are meant. -/
theorem Host.defaultAttSteps_table {h : Host} {p p' : Process} {t : AttMemory}
    (hd : h.defaultAttSteps p = some (t, p')) : t.table = AttTable.discovery := by
  obtain ⟨-, rfl, -⟩ := defaultAttSteps_eq_some_iff.1 hd
  rw [AttMemory.table, AttTable.discovery, AttTable.mk.injEq]
  refine ⟨rfl, List.map_congr_left ?_⟩
  intro i hi
  have hlt : i < 9 := List.mem_range.1 hi
  have hword : (((h.fresh .defaultAttSteps 36).overwrite 36 .stored fun i =>
      (leBytes (C.floatBits (i / 4 * defaultAttStepIncrement))).getD (i % 4) 0).word i) =
        C.floatBits (i * 6) := by
    have hdiv (k : ℕ) (hk : k < 4) :
        (4 * i + k) / 4 = i ∧ (4 * i + k) % 4 = k ∧ 4 * i + k < 36 := by
      omega
    have hlow : 4 * i < 36 := by omega
    rw [← leWord_leBytes (C.floatBits (i * 6))]
    simp [Memory.word, Memory.byte, Memory.overwrite_cell, hdiv, hlow, defaultAttStepIncrement]
  rw [hword]
  exact ofFloatBits_floatBits i hlt

namespace AttTable

/-- Requests within the default steps. -/
theorem selects_discovery : discovery.Selects 5 20 :=
  (selects_iff (by decide) (by decide) (by decide) (by decide)).2 (.inl ⟨24, by decide, by decide⟩)

/-- A request above the default steps: nothing is attenuated. -/
theorem not_selects_discovery : discovery.sent 60 = some 0 ∧ ¬ discovery.Selects 0 60 := by
  have hsent : discovery.sent 60 = some 0 := by decide
  refine ⟨hsent, ?_⟩
  rintro ⟨x, y, -, hb, -, -, hcovers⟩
  rw [hsent, Option.some_inj] at hb
  subst hb
  have hall : ∀ x ∈ discovery.entries, x < 60 := by decide
  have hlargest : (48 : ℚ) ∈ discovery.entries := by decide
  have hle :=
    ((covers_iff_of_forall_lt (S := {x | x ∈ discovery.entries}) hall).1 hcovers).2 hlargest
  exact absurd hle (by decide)

end AttTable

end AirspyHF
