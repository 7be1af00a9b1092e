import AirspyHF.Device.Basic
import AirspyHF.Usb.Memory

/-!
# The texts of the receiver

`airspyhf_version_string_read` and `airspyhf_get_bias_tee_name` let the device fill a local buffer,
and copy as many bytes of it as the buffer of the caller has room for, whatever the device sent.
-/

namespace AirspyHF

/-- `MAX_NAME_STRING_SIZE`. -/
def maxNameStringSize : ℕ := 64

/-- `MAX_VERSION_STRING_SIZE`. -/
def maxVersionStringSize : ℕ := maxNameStringSize

/-- A local array of `n` bytes, which is not initialized. -/
def Memory.local (n : ℕ) (stack : ℕ → UInt8) : Memory := ⟨none, n, fun i => ⟨.fresh, stack i⟩⟩

/-- A text that is read into a local array of `size` bytes, and copied to the caller.  There is no
result where the behaviour is undefined. -/
def readString (q : Request) (size : ℕ) (stack : ℕ → UInt8) (version : Memory) (length : UInt8)
    (w : World) : Option (Status × Memory × World) :=
  ((Memory.local size stack).receive (w.exchange q).reply q.length.toNat).bind fun versionLocal =>
    if (w.exchange q).result < 0 then some (.error, version, w.issue q)
    else if 0 < length then
      (version.memcpy versionLocal (length.toNat - 1)).bind fun version =>
        (version.storeAt (length.toNat - 1) 0).map fun version => (.success, version, w.issue q)
    else some (.error, version, w.issue q)

/-- The request of `airspyhf_version_string_read`. -/
def versionStringRequest : Request :=
  ⟨.getVersionString, 0, 0, [], UInt16.ofNat (maxVersionStringSize - 1)⟩

/-- `airspyhf_version_string_read`. -/
def versionStringRead (stack : ℕ → UInt8) (version : Memory) (length : UInt8) (w : World) :
    Option (Status × Memory × World) :=
  readString versionStringRequest maxVersionStringSize stack version length w

/-- The request of `airspyhf_get_bias_tee_name`. -/
def biasTeeNameRequest (index : Int32) : Request :=
  ⟨.getBiasTeeName, 0, index.toInt16.toUInt16, [], UInt16.ofNat (maxNameStringSize - 1)⟩

/-- `airspyhf_get_bias_tee_name`. -/
def getBiasTeeName (index : Int32) (stack : ℕ → UInt8) (version : Memory) (length : UInt8)
    (w : World) : Option (Status × Memory × World) :=
  readString (biasTeeNameRequest index) maxNameStringSize stack version length w

/-- What a getter leaves in the buffer of the caller. -/
def copiedText (versionLocal version : Memory) (length : ℕ) : Memory :=
  { version with
    cell := Function.update
      (fun i => if i < length - 1 then versionLocal.cell i else version.cell i) (length - 1)
      ⟨.stored, 0⟩ }

theorem copiedText_cell_of_lt {versionLocal version : Memory} {length i : ℕ} (hi : i < length - 1) :
    (copiedText versionLocal version length).cell i = versionLocal.cell i := by
  simp [copiedText, hi, hi.ne]

theorem copiedText_cell_last {versionLocal version : Memory} {length : ℕ} :
    (copiedText versionLocal version length).cell (length - 1) = ⟨.stored, 0⟩ := by
  simp [copiedText]

theorem copiedText_cell_of_le {versionLocal version : Memory} {length i : ℕ} (hlength : 0 < length)
    (hi : length ≤ i) : (copiedText versionLocal version length).cell i = version.cell i := by
  have hne : i ≠ length - 1 := by omega
  have hnot : ¬ i < length - 1 := by omega
  simp [copiedText, hne, hnot]

/-- **A getter whose request is answered** succeeds if its local array is as long as what it
copies. -/
theorem readString_eq {q : Request} {size : ℕ} {stack : ℕ → UInt8} {version : Memory}
    {length : UInt8} {w : World} (hq : q.length.toNat ≤ size)
    (hok : ¬ (w.bus w.log.length).Failed) (hlength : 0 < length)
    (hversion : length.toNat ≤ version.size) :
    readString q size stack version length w =
      if length.toNat - 1 ≤ size then
        some (.success, copiedText ((Memory.local size stack).overwrite
          ((w.bus w.log.length).moved q.length.toNat) .received (w.bus w.log.length).data)
          version length.toNat, w.issue q)
      else none := by
  have hpos : 0 < length.toNat := UInt8.lt_iff_toNat_lt.1 hlength
  have hmoved := (w.bus w.log.length).moved_le q.length.toNat
  have hfits : (w.bus w.log.length).moved q.length.toNat ≤ (Memory.local size stack).size :=
    hmoved.trans hq
  have hresult : ¬ (w.exchange q).result < 0 := by
    rw [Exchange.result, World.exchange_reply, World.exchange_request,
      Reply.result_of_not_failed hok]
    omega
  rw [readString, World.exchange_reply, Memory.receive, if_pos hfits, Option.bind_some,
    if_neg hresult, if_pos hlength, Memory.memcpy]
  by_cases hroom : length.toNat - 1 ≤ size
  · rw [if_pos ⟨hroom, by omega⟩, if_pos hroom, Option.bind_some, Memory.storeAt,
      if_pos (by dsimp only; omega)]
    rfl
  · rw [if_neg (fun h => hroom h.1), if_neg hroom]
    rfl

end AirspyHF
