import Mathlib.Data.List.Basic
import Mathlib.Tactic.Common

/-!
# Files

A seekable file with its position, which is never behind the end.

* `File.bytes_fwrite_atEnd` : what is written at the end is appended.
* `File.bytes_rewind_fwrite` : what is written after `rewind` replaces as much of the beginning.
-/

namespace AirspyHF

namespace C

/-- A file that is open for writing. -/
structure File where
  /-- What is in the file. -/
  bytes : List UInt8
  /-- The position. -/
  pos : ℕ
  /-- The position is not behind the end. -/
  pos_le : pos ≤ bytes.length

namespace File

/-- `fopen` with the mode `wb`. -/
def create : File := ⟨[], 0, Nat.zero_le _⟩

/-- `fwrite`, of everything: the bytes at the position are replaced, and the position moves behind
them. -/
def fwrite (f : File) (data : List UInt8) : File where
  bytes := f.bytes.take f.pos ++ data ++ f.bytes.drop (f.pos + data.length)
  pos := f.pos + data.length
  pos_le := by
    have h := f.pos_le
    simp only [List.length_append, List.length_take, List.length_drop]
    omega

/-- `ftell`. -/
def ftell (f : File) : ℕ := f.pos

/-- `rewind`. -/
def rewind (f : File) : File := ⟨f.bytes, 0, Nat.zero_le _⟩

/-- The position is the end of the file. -/
def AtEnd (f : File) : Prop := f.pos = f.bytes.length

theorem atEnd_create : create.AtEnd := rfl

theorem AtEnd.ftell_eq {f : File} (h : f.AtEnd) : f.ftell = f.bytes.length := h

theorem bytes_fwrite (f : File) (data : List UInt8) :
    (f.fwrite data).bytes = f.bytes.take f.pos ++ data ++ f.bytes.drop (f.pos + data.length) := rfl

theorem bytes_fwrite_atEnd {f : File} (h : f.AtEnd) (data : List UInt8) :
    (f.fwrite data).bytes = f.bytes ++ data := by
  have hpos : f.pos = f.bytes.length := h
  rw [bytes_fwrite, hpos, List.take_length, List.drop_eq_nil_of_le (Nat.le_add_right _ _),
    List.append_nil]

theorem AtEnd.fwrite {f : File} (h : f.AtEnd) (data : List UInt8) : (f.fwrite data).AtEnd := by
  rw [AtEnd, bytes_fwrite_atEnd h, List.length_append]
  exact congrArg (· + data.length) h

theorem bytes_rewind_fwrite (f : File) (data : List UInt8) :
    (f.rewind.fwrite data).bytes = data ++ f.bytes.drop data.length := by
  have hpos : f.rewind.pos = 0 := rfl
  rw [bytes_fwrite, hpos, List.take_zero, List.nil_append, Nat.zero_add]
  rfl

end File

end C

end AirspyHF
