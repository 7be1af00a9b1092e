import AirspyHF.Usb.Host

/-!
# Blocks of memory

A block is what a pointer of the driver denotes: the resource behind it, if the pointer is not null,
its size, and its bytes.  Every byte carries its origin: memory is *fresh* until the device sends it
or the driver sets it.  Writing past the end of a block is undefined, so the operations that write
are partial; the null pointer denotes a block of size zero.
-/

namespace AirspyHF

/-- Where the value of a byte comes from. -/
inductive Origin where
  /-- It is whatever the memory held. -/
  | fresh
  /-- The device sent it. -/
  | received
  /-- The driver set it. -/
  | stored
  deriving DecidableEq, Repr

/-- A byte of memory. -/
structure Cell where
  origin : Origin
  value : UInt8

/-- A block of memory. -/
structure Memory where
  /-- The resource, or `none` for the null pointer and for memory inside the device structure. -/
  owner : Option Resource
  size : ℕ
  cell : ℕ → Cell

namespace Memory

/-- The null pointer. -/
def null : Memory := ⟨none, 0, fun _ => ⟨.fresh, 0⟩⟩

/-- A word of the device structure, which `calloc` has cleared. -/
def cleared : Memory := ⟨none, 4, fun _ => ⟨.stored, 0⟩⟩

variable (b : Memory)

/-- The block with the first `n` bytes overwritten. -/
def overwrite (n : ℕ) (origin : Origin) (value : ℕ → UInt8) : Memory :=
  { b with cell := fun i => if i < n then ⟨origin, value i⟩ else b.cell i }

/-- The device sends the bytes of a reply to a request of `len` bytes. -/
def receive (r : Reply) (len : ℕ) : Option Memory :=
  if r.moved len ≤ b.size then some (b.overwrite (r.moved len) .received r.data) else none

/-- The driver sets the first `n` bytes. -/
def store (n : ℕ) (value : ℕ → UInt8) : Option Memory :=
  if n ≤ b.size then some (b.overwrite n .stored value) else none

/-- The driver sets the byte at `i`. -/
def storeAt (i : ℕ) (value : UInt8) : Option Memory :=
  if i < b.size then some { b with cell := Function.update b.cell i ⟨.stored, value⟩ } else none

/-- `memcpy` of the first `n` bytes of another block, which keep their origin. -/
def memcpy (src : Memory) (n : ℕ) : Option Memory :=
  if n ≤ src.size ∧ n ≤ b.size then
    some { b with cell := fun i => if i < n then src.cell i else b.cell i }
  else none

/-- The `i`-th byte. -/
def byte (i : ℕ) : UInt8 := (b.cell i).value

/-- The `i`-th word, least significant byte first. -/
def word (i : ℕ) : UInt32 :=
  C.leWord (b.byte (4 * i)) (b.byte (4 * i + 1)) (b.byte (4 * i + 2)) (b.byte (4 * i + 3))

/-- The `i`-th byte, if it is in the block. -/
def byte? (i : ℕ) : Option UInt8 := if i < b.size then some (b.byte i) else none

/-- The `i`-th word, if it is in the block. -/
def word? (i : ℕ) : Option UInt32 := if 4 * i + 4 ≤ b.size then some (b.word i) else none

/-- The entry of `n` bytes at `i` is in the block, and it was received in full or set by the
driver. -/
def Known (i n : ℕ) : Prop :=
  i + n ≤ b.size ∧ ((∀ k < n, (b.cell (i + k)).origin = .received) ∨
    ∀ k < n, (b.cell (i + k)).origin = .stored)

instance (i n : ℕ) : Decidable (b.Known i n) := inferInstanceAs (Decidable (_ ∧ (_ ∨ _)))

variable {b} {b' : Memory} {n : ℕ} {origin : Origin} {value : ℕ → UInt8}

@[simp] theorem overwrite_owner : (b.overwrite n origin value).owner = b.owner := rfl
@[simp] theorem overwrite_size : (b.overwrite n origin value).size = b.size := rfl

theorem overwrite_cell (i : ℕ) :
    (b.overwrite n origin value).cell i = if i < n then ⟨origin, value i⟩ else b.cell i :=
  rfl

theorem receive_eq_some_iff {r : Reply} {len : ℕ} : b.receive r len = some b' ↔
    r.moved len ≤ b.size ∧ b.overwrite (r.moved len) .received r.data = b' := by
  rw [receive, Option.ite_none_right_eq_some, Option.some_inj]

theorem store_eq_some_iff :
    b.store n value = some b' ↔ n ≤ b.size ∧ b.overwrite n .stored value = b' := by
  rw [store, Option.ite_none_right_eq_some, Option.some_inj]

theorem known_overwrite {i k : ℕ} (hk : i + k ≤ n) (hn : n ≤ b.size) (ho : origin ≠ .fresh) :
    (b.overwrite n origin value).Known i k := by
  have hcell : ∀ j < k, ((b.overwrite n origin value).cell (i + j)).origin = origin := by
    intro j hj
    rw [overwrite_cell, if_pos (by omega)]
  refine ⟨hk.trans hn, ?_⟩
  cases origin with
  | fresh => exact absurd rfl ho
  | received => exact .inl hcell
  | stored => exact .inr hcell

end Memory

/-- A fresh block. -/
def Host.fresh (h : Host) (r : Resource) (n : ℕ) : Memory :=
  ⟨some r, n, fun i => ⟨.fresh, h.heap r i⟩⟩

theorem Memory.le_of_known_fresh {h : Host} {r : Resource} {size n i k : ℕ} {origin : Origin}
    {value : ℕ → UInt8} (hk : 0 < k)
    (hknown : (((h.fresh r size).overwrite n origin value).Known i k)) : i + k ≤ n := by
  obtain ⟨-, hcell⟩ := hknown
  by_contra hlt
  have hlast : (((h.fresh r size).overwrite n origin value).cell (i + (k - 1))).origin =
      .fresh := by
    rw [overwrite_cell, if_neg (by omega)]
    rfl
  rcases hcell with hcell | hcell
  · exact absurd (hlast.symm.trans (hcell (k - 1) (by omega))) nofun
  · exact absurd (hlast.symm.trans (hcell (k - 1) (by omega))) nofun

namespace Process

variable (p : Process)

/-- `malloc` of `n` bytes. -/
def malloc (h : Host) (r : Resource) (n : ℕ) : Memory × Process :=
  if h.grants r then (h.fresh r n, p.acquire r) else (.null, p)

/-- `free`: nothing happens for the null pointer. -/
def free (b : Memory) : Option Process := p.releaseAll b.owner.toList

variable {p} {h : Host} {r : Resource} {n : ℕ}

theorem malloc_of_grants (hr : h.grants r) : p.malloc h r n = (h.fresh r n, p.acquire r) :=
  if_pos hr

theorem malloc_of_refused (hr : ¬ h.grants r) : p.malloc h r n = (.null, p) := if_neg hr

theorem malloc_held : (p.malloc h r n).2.held = ↑(p.malloc h r n).1.owner.toList + p.held := by
  by_cases hr : h.grants r
  · rw [malloc_of_grants hr]
    rfl
  · rw [malloc_of_refused hr]
    exact (Multiset.zero_add _).symm

theorem eq_of_mem_malloc {r' : Resource} (hr' : r' ∈ (p.malloc h r n).1.owner.toList) :
    r' = r := by
  by_cases hr : h.grants r
  · rw [malloc_of_grants hr] at hr'
    exact List.mem_singleton.1 hr'
  · rw [malloc_of_refused hr] at hr'
    exact absurd hr' (List.not_mem_nil)

theorem malloc_log : (p.malloc h r n).2.log = p.log := by
  unfold malloc
  split <;> rfl

theorem malloc_size : (p.malloc h r n).1.size = if h.grants r then n else 0 := by
  unfold malloc
  split <;> rfl

theorem grants_of_le_size {k : ℕ} (hk : 0 < k) (hsize : k ≤ (p.malloc h r n).1.size) :
    h.grants r := by
  rw [malloc_size] at hsize
  by_contra hr
  rw [if_neg hr] at hsize
  omega

theorem free_malloc {b : Memory} (hb : b.owner = (p.malloc h r n).1.owner) {bus : ℕ → Reply}
    {q : Request} : ((p.malloc h r n).2.issue bus q).free b = some (p.issue bus q) := by
  rw [free, releaseAll_eq_some_iff, hb, issue_held, issue_log, issue_log, malloc_held, malloc_log]
  exact ⟨rfl, rfl⟩

end Process

end AirspyHF
