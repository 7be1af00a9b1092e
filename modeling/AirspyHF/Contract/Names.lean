import AirspyHF.Device.Calls
import AirspyHF.Device.Names

/-!
# What the callers of the getters of texts rely on

A caller passes a buffer and its length, and gets the text of the device, cut to the buffer.

* `texts_iff` : so it is exactly when the text is at least as long as the buffer, without its last
  byte.  Beyond the text the caller gets what was on the stack of the driver.
* `versionStringRead_info` : the buffer of `airspyhf_info` makes the driver read past the end of its
  own.
-/

namespace AirspyHF

/-- The buffer `out` of the caller, of `length` bytes, holds the text that the device sent.  Bytes
that are copied keep their origin. -/
structure TextOf (r : Reply) (len length : ℕ) (version out : Memory) : Prop where
  /-- The first bytes of the text, and a zero. -/
  text : (List.range (min (r.moved len) (length - 1) + 1)).map out.byte =
    (List.range (min (r.moved len) (length - 1))).map r.data ++ [0]
  /-- No byte was copied but those the device sent. -/
  sent : ∀ i < length - 1, (out.cell i).origin = .received
  size : out.size = version.size
  frame : ∀ i, length ≤ i → out.cell i = version.cell i

/-- A getter returns exactly what the device sent. -/
def ReturnsText (r : Reply) (len : ℕ) (length : UInt8) (version : Memory)
    (x : Option (Status × Memory × World)) : Prop :=
  ∃ out w', x = some (.success, out, w') ∧ TextOf r len length.toNat version out

/-- What is copied is the text if the text is long enough. -/
theorem textOf_copiedText_iff {r : Reply} {len size length : ℕ} {stack : ℕ → UInt8}
    {version : Memory} (hlength : 0 < length) :
    TextOf r len length version
        (copiedText ((Memory.local size stack).overwrite (r.moved len) .received r.data) version
          length) ↔ length ≤ r.moved len + 1 := by
  constructor
  · intro h
    by_contra hshort
    have horigin := h.sent (r.moved len) (by omega)
    rw [copiedText_cell_of_lt (by omega), Memory.overwrite_cell, if_neg (lt_irrefl _)] at horigin
    cases horigin
  · intro hlong
    have hmin : min (r.moved len) (length - 1) = length - 1 := min_eq_right (by omega)
    have hcell : ∀ i < length - 1, (copiedText ((Memory.local size stack).overwrite (r.moved len)
        .received r.data) version length).cell i = ⟨.received, r.data i⟩ := by
      intro i hi
      rw [copiedText_cell_of_lt hi, Memory.overwrite_cell, if_pos (by omega)]
    refine ⟨?_, fun i hi => ?_, rfl, fun i hi => ?_⟩
    · rw [hmin, List.range_succ, List.map_append, List.map_singleton]
      congr 1
      · refine List.map_congr_left ?_
        intro i hi
        rw [Memory.byte, hcell i (List.mem_range.1 hi)]
      · rw [Memory.byte, copiedText_cell_last]
    · rw [hcell i hi]
    · exact copiedText_cell_of_le hlength hi

section

variable {stack : ℕ → UInt8} {version : Memory} {length : UInt8} {w : World}
  (hok : ¬ (w.bus w.log.length).Failed) (hlength : 0 < length)
  (hversion : length.toNat ≤ version.size)
include hok hlength hversion

theorem returnsText_readString_iff {q : Request} {size : ℕ} (hq : q.length.toNat ≤ size) :
    ReturnsText (w.bus w.log.length) q.length.toNat length version
        (readString q size stack version length w) ↔
      length.toNat ≤ (w.bus w.log.length).moved q.length.toNat + 1 := by
  have hpos : 0 < length.toNat := UInt8.lt_iff_toNat_lt.1 hlength
  rw [readString_eq hq hok hlength hversion, ReturnsText]
  constructor
  · rintro ⟨out, w', hout, htext⟩
    rw [Option.ite_none_right_eq_some, Option.some_inj] at hout
    obtain ⟨-, hout⟩ := hout
    obtain ⟨rfl, -⟩ := Prod.mk.inj (Prod.mk.inj hout).2
    exact (textOf_copiedText_iff hpos).1 htext
  · intro hlong
    have hmoved := (w.bus w.log.length).moved_le q.length.toNat
    exact ⟨_, _, if_pos (by omega), (textOf_copiedText_iff hpos).2 hlong⟩

/-- **When the caller gets the text of the device**: the text is at least as long as the buffer
without its last byte. -/
theorem texts_iff :
    (ReturnsText (w.bus w.log.length) 63 length version
        (versionStringRead stack version length w) ↔
      length.toNat ≤ (w.bus w.log.length).moved 63 + 1) ∧
    ∀ index, ReturnsText (w.bus w.log.length) 63 length version
        (getBiasTeeName index stack version length w) ↔
      length.toNat ≤ (w.bus w.log.length).moved 63 + 1 := by
  have hroom : (UInt16.ofNat (maxNameStringSize - 1)).toNat ≤ maxNameStringSize := by decide
  exact ⟨returnsText_readString_iff hok hlength hversion hroom,
    fun _ => returnsText_readString_iff hok hlength hversion hroom⟩

end

/-- The buffer of `airspyhf_info`: the driver reads past the end of its own. -/
theorem versionStringRead_info {stack : ℕ → UInt8} {version : Memory} {w : World}
    (hok : ¬ (w.bus w.log.length).Failed) (hversion : version.size = 255) :
    versionStringRead stack version 255 w = none := by
  have hroom : (255 : UInt8).toNat ≤ version.size := hversion.ge
  exact (readString_eq (by decide) hok (by decide) hroom).trans (if_neg (by decide))

/-- The device sends a text of `n` bytes. -/
def World.sending (n : ℕ) : World := .fresh .fallback fun _ => ⟨none, n, fun _ => 82⟩

/-- A caller's buffer of sixteen bytes. -/
def sixteen : Memory := .local 16 fun _ => 0

/-- A text that fills the buffer. -/
theorem texts_long :
    (ReturnsText ⟨none, 20, fun _ => 82⟩ 63 16 sixteen
        (versionStringRead (fun _ => 0) sixteen 16 (.sending 20)) ↔ 16 ≤ 21) ∧
    ∀ index, ReturnsText ⟨none, 20, fun _ => 82⟩ 63 16 sixteen
        (getBiasTeeName index (fun _ => 0) sixteen 16 (.sending 20)) ↔ 16 ≤ 21 :=
  texts_iff (w := .sending 20) (by decide) (by decide) le_rfl

/-- A text of four bytes in a buffer of sixteen. -/
theorem not_texts_short : ¬ ReturnsText ⟨none, 4, fun _ => 82⟩ 63 16 sixteen
    (versionStringRead (fun _ => 0) sixteen 16 (.sending 4)) := by
  intro h
  have hlong := (returnsText_readString_iff (w := .sending 4) (by decide) (by decide) le_rfl
    (by decide)).1 h
  exact absurd hlong (by decide)

end AirspyHF
