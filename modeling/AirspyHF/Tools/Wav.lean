import AirspyHF.Device.Config

/-!
# The header of a recording

`airspyhf_rx` writes `wave_file_hdr` before the samples, and fills it in at the end.  A header is a
record of 44 bytes, and its numbers have the least significant byte first.

* `WavFileHdr.ofBytes_bytes` : the header is found again at the start of the file.
* `finish_matches_iff` : the sizes, the rate and the alignment of the finished header are right
  unless the file is too long for 32 bits.
* `finish_not_describes` : the number of bytes a second is not.
-/

namespace AirspyHF

namespace Rx

/-! ### The records -/

/-- The bytes of a number of 16 bits in memory, least significant first. -/
def leBytes16 (x : UInt16) : List UInt8 := [x.toUInt8, (x >>> 8).toUInt8]

/-- The number of 16 bits at `i` of a text of bytes. -/
def halfAt (bs : List UInt8) (i : ℕ) : UInt16 :=
  UInt16.ofNat (C.ofBeBytes [bs.getD (i + 1) 0, bs.getD i 0])

/-- `char [4]`. -/
structure ChunkId where
  c₀ : UInt8
  c₁ : UInt8
  c₂ : UInt8
  c₃ : UInt8

/-- The bytes of the identifier in memory. -/
def ChunkId.bytes (c : ChunkId) : List UInt8 := [c.c₀, c.c₁, c.c₂, c.c₃]

/-- The identifier at `i` of a text of bytes. -/
def idAt (bs : List UInt8) (i : ℕ) : ChunkId :=
  ⟨bs.getD i 0, bs.getD (i + 1) 0, bs.getD (i + 2) 0, bs.getD (i + 3) 0⟩

/-- `t_WAVRIFF_hdr`. -/
structure WavRiffHdr where
  /-- `groupID`. -/
  groupID : ChunkId
  /-- `size`. -/
  size : UInt32
  /-- `riffType`. -/
  riffType : ChunkId

/-- `t_FormatChunk`. -/
structure FormatChunk where
  /-- `chunkID`. -/
  chunkID : ChunkId
  /-- `chunkSize`. -/
  chunkSize : UInt32
  /-- `wFormatTag`. -/
  wFormatTag : UInt16
  /-- `wChannels`. -/
  wChannels : UInt16
  /-- `dwSamplesPerSec`. -/
  dwSamplesPerSec : UInt32
  /-- `dwAvgBytesPerSec`. -/
  dwAvgBytesPerSec : UInt32
  /-- `wBlockAlign`. -/
  wBlockAlign : UInt16
  /-- `wBitsPerSample`. -/
  wBitsPerSample : UInt16

/-- `t_DataChunk`. -/
structure DataChunk where
  /-- `chunkID`. -/
  chunkID : ChunkId
  /-- `chunkSize`. -/
  chunkSize : UInt32

/-- `t_wav_file_hdr`. -/
structure WavFileHdr where
  /-- `hdr`. -/
  hdr : WavRiffHdr
  /-- `fmt_chunk`. -/
  fmtChunk : FormatChunk
  /-- `data_chunk`. -/
  dataChunk : DataChunk

/-- `wave_file_hdr`, as it is before the end. -/
def waveFileHdr : WavFileHdr where
  hdr := ⟨⟨82, 73, 70, 70⟩, 0, ⟨87, 65, 86, 69⟩⟩
  fmtChunk := ⟨⟨102, 109, 116, 32⟩, 16, 0, 0, 0, 0, 0, 0⟩
  dataChunk := ⟨⟨100, 97, 116, 97⟩, 0⟩

/-! ### The bytes of the records -/

def WavRiffHdr.bytes (h : WavRiffHdr) : List UInt8 :=
  h.groupID.bytes ++ leBytes h.size ++ h.riffType.bytes

def FormatChunk.bytes (c : FormatChunk) : List UInt8 :=
  c.chunkID.bytes ++ leBytes c.chunkSize ++ leBytes16 c.wFormatTag ++ leBytes16 c.wChannels ++
    leBytes c.dwSamplesPerSec ++ leBytes c.dwAvgBytesPerSec ++ leBytes16 c.wBlockAlign ++
    leBytes16 c.wBitsPerSample

def DataChunk.bytes (c : DataChunk) : List UInt8 := c.chunkID.bytes ++ leBytes c.chunkSize

/-- The bytes of the header in memory. -/
def WavFileHdr.bytes (h : WavFileHdr) : List UInt8 :=
  h.hdr.bytes ++ (h.fmtChunk.bytes ++ h.dataChunk.bytes)

/-- `sizeof(t_wav_file_hdr)`. -/
def sizeofWavFileHdr : ℕ := 44

def WavRiffHdr.ofBytes (bs : List UInt8) : WavRiffHdr := ⟨idAt bs 0, wordAt bs 4, idAt bs 8⟩

def FormatChunk.ofBytes (bs : List UInt8) : FormatChunk where
  chunkID := idAt bs 0
  chunkSize := wordAt bs 4
  wFormatTag := halfAt bs 8
  wChannels := halfAt bs 10
  dwSamplesPerSec := wordAt bs 12
  dwAvgBytesPerSec := wordAt bs 16
  wBlockAlign := halfAt bs 20
  wBitsPerSample := halfAt bs 22

def DataChunk.ofBytes (bs : List UInt8) : DataChunk := ⟨idAt bs 0, wordAt bs 4⟩

/-- The header that the bytes in memory represent. -/
def WavFileHdr.ofBytes (bs : List UInt8) : WavFileHdr :=
  ⟨.ofBytes bs, .ofBytes (bs.drop 12), .ofBytes (bs.drop 36)⟩

theorem ofBeBytes_leBytes16 (x : UInt16) :
    UInt16.ofNat (C.ofBeBytes [(x >>> 8).toUInt8, x.toUInt8]) = x := by
  have hx := x.toNat_lt
  rw [← UInt16.toNat_inj, UInt16.toNat_ofNat']
  simp [C.ofBeBytes, Nat.shiftRight_eq_div_pow]
  omega

theorem WavRiffHdr.ofBytes_bytes (h : WavRiffHdr) (rest : List UInt8) :
    ofBytes (h.bytes ++ rest) = h := by
  obtain ⟨group, size, riff⟩ := h
  obtain ⟨a₀, a₁, a₂, a₃, ha, hsize⟩ := exists_leBytes size
  simp only [bytes, ChunkId.bytes, ha, List.cons_append, List.nil_append, ofBytes,
    WavRiffHdr.mk.injEq]
  exact ⟨rfl, hsize, rfl⟩

theorem FormatChunk.ofBytes_bytes (c : FormatChunk) (rest : List UInt8) :
    ofBytes (c.bytes ++ rest) = c := by
  obtain ⟨id, size, tag, channels, rate, avg, align, bits⟩ := c
  obtain ⟨a₀, a₁, a₂, a₃, ha, hsize⟩ := exists_leBytes size
  obtain ⟨b₀, b₁, b₂, b₃, hb, hrate⟩ := exists_leBytes rate
  obtain ⟨c₀, c₁, c₂, c₃, hc, havg⟩ := exists_leBytes avg
  simp only [bytes, ChunkId.bytes, leBytes16, ha, hb, hc, List.cons_append, List.nil_append,
    ofBytes, FormatChunk.mk.injEq]
  exact ⟨rfl, hsize, ofBeBytes_leBytes16 tag, ofBeBytes_leBytes16 channels, hrate, havg,
    ofBeBytes_leBytes16 align, ofBeBytes_leBytes16 bits⟩

theorem DataChunk.ofBytes_bytes (c : DataChunk) (rest : List UInt8) :
    ofBytes (c.bytes ++ rest) = c := by
  obtain ⟨id, size⟩ := c
  obtain ⟨a₀, a₁, a₂, a₃, ha, hsize⟩ := exists_leBytes size
  simp only [bytes, ChunkId.bytes, ha, List.cons_append, List.nil_append, ofBytes,
    DataChunk.mk.injEq]
  exact ⟨rfl, hsize⟩

@[simp] theorem WavFileHdr.length_bytes (h : WavFileHdr) : h.bytes.length = sizeofWavFileHdr := by
  simp [bytes, WavRiffHdr.bytes, FormatChunk.bytes, DataChunk.bytes, ChunkId.bytes,
    leBytes, leBytes16, C.beBytes, sizeofWavFileHdr]

/-- **The header** is found again at the start of its bytes. -/
theorem WavFileHdr.ofBytes_bytes (h : WavFileHdr) (rest : List UInt8) :
    ofBytes (h.bytes ++ rest) = h := by
  have hhdr : h.hdr.bytes.length = 12 := by
    simp [WavRiffHdr.bytes, ChunkId.bytes, leBytes, C.beBytes]
  have hfmt : h.fmtChunk.bytes.length = 24 := by
    simp [FormatChunk.bytes, ChunkId.bytes, leBytes, leBytes16, C.beBytes]
  have hdrop₁ : (h.bytes ++ rest).drop 12 = h.fmtChunk.bytes ++ (h.dataChunk.bytes ++ rest) := by
    rw [bytes, List.append_assoc, List.append_assoc, List.drop_left' hhdr]
  have hdrop₂ : (h.bytes ++ rest).drop 36 = h.dataChunk.bytes ++ rest := by
    rw [← List.drop_drop (i := 24) (j := 12), hdrop₁, List.drop_left' hfmt]
  rw [ofBytes, hdrop₁, hdrop₂, FormatChunk.ofBytes_bytes, DataChunk.ofBytes_bytes, bytes,
    List.append_assoc, WavRiffHdr.ofBytes_bytes]

/-! ### The end of a recording -/

/-- The header at the end of `main`: `filePos` is the size of the file. -/
def WavFileHdr.finish (h : WavFileHdr) (filePos wavSamplePerSec : UInt32) : WavFileHdr where
  hdr := { h.hdr with size := filePos - 8 }
  fmtChunk := { h.fmtChunk with
    wFormatTag := 3
    wChannels := 2
    dwSamplesPerSec := wavSamplePerSec
    dwAvgBytesPerSec := wavSamplePerSec * 4
    wBlockAlign := 2 * (32 / 8)
    wBitsPerSample := 32 }
  -- the size of a type has 64 bits
  dataChunk := { h.dataChunk with chunkSize := (filePos.toUInt64 - 44).toUInt32 }

/-- The header has the sizes of a file with `n` bytes of samples, the rate of the stream, and the
size of a sample. -/
structure WavFileHdr.Matches (h : WavFileHdr) (n : ℕ) (rate : UInt32) : Prop where
  chunkSize : h.dataChunk.chunkSize.toNat = n
  size : h.hdr.size.toNat = n + 36
  dwSamplesPerSec : h.fmtChunk.dwSamplesPerSec = rate
  wBlockAlign : h.fmtChunk.wBlockAlign = 8

/-- **What the header is for**: it describes the `n` bytes of samples that follow, of a stream at
the given rate. -/
structure WavFileHdr.Describes (h : WavFileHdr) (n : ℕ) (rate : UInt32) : Prop
    extends h.Matches n rate where
  dwAvgBytesPerSec : h.fmtChunk.dwAvgBytesPerSec.toNat =
    h.fmtChunk.dwSamplesPerSec.toNat * h.fmtChunk.wBlockAlign.toNat

/-- The sizes come from the size of the file, of which 32 bits are kept. -/
theorem finish_matches_iff (h : WavFileHdr) {n : ℕ} {wavSamplePerSec rate : UInt32} :
    (h.finish (UInt32.ofNat (sizeofWavFileHdr + n)) wavSamplePerSec).Matches n rate ↔
      n + 36 < 2 ^ 32 ∧ wavSamplePerSec = rate := by
  have h₄₄ : (44 : UInt64).toNat = 44 := rfl
  have h₈ : (8 : UInt32).toNat = 8 := rfl
  have hchunk : ((UInt32.ofNat (44 + n)).toUInt64 - 44).toUInt32.toNat = n % 2 ^ 32 := by
    rw [UInt64.toNat_toUInt32, UInt64.toNat_sub, UInt32.toNat_toUInt64, UInt32.toNat_ofNat', h₄₄]
    omega
  have hsize : (UInt32.ofNat (44 + n) - 8).toNat = (n + 36) % 2 ^ 32 := by
    rw [UInt32.toNat_sub, UInt32.toNat_ofNat', h₈]
    omega
  constructor
  · rintro ⟨-, hsize', hrate, -⟩
    have hlt := Nat.mod_lt (n + 36) (Nat.two_pow_pos 32)
    rw [← hsize, show (UInt32.ofNat (44 + n) - 8).toNat = n + 36 from hsize'] at hlt
    exact ⟨hlt, hrate⟩
  · rintro ⟨hn, rfl⟩
    exact ⟨hchunk.trans (Nat.mod_eq_of_lt (by omega)), hsize.trans (Nat.mod_eq_of_lt hn), rfl, rfl⟩

theorem finish_not_describes (h : WavFileHdr) {filePos wavSamplePerSec rate : UInt32} {n : ℕ}
    (hrate : wavSamplePerSec ≠ 0) : ¬ (h.finish filePos wavSamplePerSec).Describes n rate := by
  intro hdescribes
  have havg : (wavSamplePerSec * 4).toNat = wavSamplePerSec.toNat * 8 :=
    hdescribes.dwAvgBytesPerSec
  have hpos : wavSamplePerSec.toNat ≠ 0 := fun hzero => hrate (UInt32.toNat_inj.1 hzero)
  have hle : (wavSamplePerSec * 4).toNat ≤ wavSamplePerSec.toNat * 4 := by
    rw [UInt32.toNat_mul]
    exact Nat.mod_le _ _
  omega

end Rx

end AirspyHF
