import RemoteDebugger.Proofs.Number.Digits
import RemoteDebugger.Proofs.Text.Utf8
import RemoteDebugger.Proofs.Wire.Extraction

/-!
# Frames that were written

The checksum of a frame is written in two digits, neither of which can open or close a frame, and is
read back as its value.  A payload without an end mark is therefore found again, intact, wherever
its frame stands in a buffer.
-/

namespace RemoteDebugger.Wire

open RemoteDebugger.Hex RemoteDebugger.Text

theorem mark_not_mem_checksumDigits (sum : UInt8) :
    startMark ∉ checksumDigits sum ∧ endMark ∉ checksumDigits sum := by
  have hdigit : ∀ b ∈ checksumDigits sum, b ≠ startMark ∧ b ≠ endMark := by
    intro b hb
    obtain ⟨c, hc, rfl⟩ := List.mem_map.mp hb
    rw [byte_eq_fixed] at hc
    obtain ⟨value, hvalue, rfl⟩ := exists_of_mem_fixed hc
    have hmark := (digit_ne_mark hvalue .upper).2
    have hsame := ofUInt8_toUInt8_of_ascii (digit_ascii hvalue .upper)
    constructor
    · intro hstart
      rw [hstart] at hsame
      exact hmark '$' (by simp) hsame.symm
    · intro hend
      rw [hend] at hsame
      exact hmark '#' (by simp) hsame.symm
  exact ⟨fun h => (hdigit _ h).1 rfl, fun h => (hdigit _ h).2 rfl⟩

/-- A checksum that was written in two digits is read back. -/
theorem exists_checksumDigits (sum : UInt8) :
    ∃ first second, checksumDigits sum = [first, second] ∧
      claimedChecksum? first second = some sum.toNat := by
  refine ⟨_, _, rfl, ?_⟩
  have hsum : sum.toNat < 256 := sum.toNat_lt
  have hhigh : sum.toNat / 16 < 16 := by omega
  have hlow : sum.toNat % 16 < 16 := Nat.mod_lt _ (by decide)
  have hread : Numeral.read 16 256 (fixed .upper 2 sum.toNat) = .ok sum.toNat :=
    Numeral.read_fixed .upper (by decide) hsum hsum
  rw [← byte_eq_fixed, byte] at hread
  rw [claimedChecksum?, ofUInt8_toUInt8_of_ascii (digit_ascii hhigh .upper),
    ofUInt8_toUInt8_of_ascii (digit_ascii hlow .upper), hread]
  rfl

/-- A payload without an end mark is found in its frame, behind bytes that open none. -/
theorem extract?_encode {noise payload : Bytes} (hnoise : startMark ∉ noise)
    (hpayload : endMark ∉ payload) (rest : Bytes) :
    extract? (noise ++ encode payload ++ rest) =
      some (⟨payload, true, noise.length + payload.length + 4⟩, rest) := by
  obtain ⟨first, second, hdigits, hclaimed⟩ := exists_checksumDigits (checksum payload)
  have hframed := extract?_framed hnoise hpayload first second rest
  simp only [hclaimed, beq_self_eq_true] at hframed
  rw [encode, hdigits]
  simpa using hframed

theorem drain_encode {noise payload : Bytes} (hnoise : startMark ∉ noise)
    (hpayload : endMark ∉ payload) :
    drain (noise ++ encode payload) =
      ([⟨payload, true, noise.length + payload.length + 4⟩], []) := by
  have hframe := extract?_encode hnoise hpayload []
  rw [List.append_nil] at hframe
  rw [drain_of_some hframe, drain_of_none rfl]

end RemoteDebugger.Wire
