import RemoteDebugger.Proofs.Wire.Framing

/-!
# Which checksums are accepted

The field behind an end mark is read as a numeral.  Two digits in either letter case are accepted
exactly if their value is the sum of the payload modulo 256, but a numeral may also begin with a
plus sign.  A plus sign and one digit are therefore accepted where the sum is below sixteen, though
the field is then not one of two digits: a leading zero that was turned into a plus sign on its way
goes unnoticed.
-/

namespace RemoteDebugger.Wire

/-- The sign that a numeral may begin with, `+`. -/
def plusSign : UInt8 := 0x2B

/-- The value of a byte that is a hexadecimal digit. -/
def byteDigit? (b : UInt8) : Option Nat :=
  Hex.digitValue? (Char.ofUInt8 b)

theorem byteDigit?_lt {b : UInt8} {value : Nat} (h : byteDigit? b = some value) : value < 16 :=
  Hex.digitValue?_lt h

theorem byteDigit?_plusSign : byteDigit? plusSign = none := by
  decide

/-! ## The sum of a payload -/

/-- The sum of all bytes. -/
def byteSum (bytes : Bytes) : Nat :=
  bytes.foldr (fun b total => b.toNat + total) 0

theorem toNat_foldl_add (bytes : Bytes) (start : UInt8) :
    (bytes.foldl (· + ·) start).toNat = (start.toNat + byteSum bytes) % 256 := by
  induction bytes generalizing start with
  | nil =>
      have hbound : start.toNat < 256 := start.toNat_lt
      simp [byteSum, Nat.mod_eq_of_lt hbound]
  | cons b later ih =>
      have hsum : byteSum (b :: later) = b.toNat + byteSum later := rfl
      rw [List.foldl_cons, ih, UInt8.toNat_add, hsum]
      omega

theorem toNat_checksum (bytes : Bytes) : (checksum bytes).toNat = byteSum bytes % 256 := by
  rw [checksum, toNat_foldl_add]
  simp

/-! ## The value of a field -/

theorem claimedChecksum?_plusSign (second : UInt8) :
    claimedChecksum? plusSign second = byteDigit? second := by
  have hsign : Char.ofUInt8 plusSign = '+' := by decide
  simp only [claimedChecksum?, hsign, Numeral.read, Numeral.readDigits, Numeral.digitValue?_sixteen,
    byteDigit?]
  cases hdigit : Hex.digitValue? (Char.ofUInt8 second) with
  | none => rfl
  | some value =>
      have hbound := Hex.digitValue?_lt hdigit
      have hfits : value < 256 := by omega
      simp [hfits, Except.toOption]

theorem claimedChecksum?_of_ne_plusSign {first : UInt8} (second : UInt8)
    (h : first ≠ plusSign) :
    claimedChecksum? first second =
      (byteDigit? first).bind fun high => (byteDigit? second).map fun low => 16 * high + low := by
  have hsign : Char.ofUInt8 first ≠ '+' := by
    intro hplus
    have hcode := congrArg Char.toNat hplus
    rw [Text.toNat_ofUInt8] at hcode
    exact h (UInt8.toNat_inj.mp hcode)
  rw [claimedChecksum?, Numeral.read_of_head_ne_plus hsign]
  simp only [Numeral.readDigits, Numeral.digitValue?_sixteen, byteDigit?]
  cases hhigh : Hex.digitValue? (Char.ofUInt8 first) with
  | none => rfl
  | some high =>
      have hhighBound := Hex.digitValue?_lt hhigh
      have hhighFits : high < 256 := by omega
      cases hlow : Hex.digitValue? (Char.ofUInt8 second) with
      | none => simp [hhighFits, Except.toOption]
      | some low =>
          have hlowBound := Hex.digitValue?_lt hlow
          have hlowFits : high * 16 + low < 256 := by omega
          simp [hhighFits, hlowFits, Except.toOption, Nat.mul_comm]

/-! ## Accepted frames -/

namespace Framing

variable {buffer : Bytes}

/-- The field holds two digits whose value is the sum of the payload modulo 256. -/
def Checks (framing : Framing buffer) : Prop :=
  ∃ high low, byteDigit? framing.first = some high ∧ byteDigit? framing.second = some low ∧
    16 * high + low = byteSum framing.payload % 256

/-- The field holds a plus sign and a digit whose value is that sum. -/
def ChecksSigned (framing : Framing buffer) : Prop :=
  framing.first = plusSign ∧
    byteDigit? framing.second = some (byteSum framing.payload % 256)

theorem intact_iff_claimed (framing : Framing buffer) :
    framing.frame.intact = true ↔
      claimedChecksum? framing.first framing.second = some (byteSum framing.payload % 256) := by
  rw [frame, beq_iff_eq, toNat_checksum]

theorem intact_iff (framing : Framing buffer) :
    framing.frame.intact = true ↔ framing.Checks ∨ framing.ChecksSigned := by
  rw [intact_iff_claimed]
  by_cases hsign : framing.first = plusSign
  · rw [hsign, claimedChecksum?_plusSign]
    constructor
    · intro hdigit
      exact Or.inr ⟨hsign, hdigit⟩
    · rintro (⟨high, low, hhigh, -⟩ | ⟨-, hdigit⟩)
      · rw [hsign, byteDigit?_plusSign] at hhigh
        cases hhigh
      · exact hdigit
  · simp only [claimedChecksum?_of_ne_plusSign _ hsign, Option.bind_eq_some_iff,
      Option.map_eq_some_iff]
    constructor
    · rintro ⟨high, hhigh, low, hlow, hvalue⟩
      exact Or.inl ⟨high, low, hhigh, hlow, hvalue⟩
    · rintro (⟨high, low, hhigh, hlow, hvalue⟩ | ⟨hplus, -⟩)
      · exact ⟨high, hhigh, low, hlow, hvalue⟩
      · exact absurd hplus hsign

/-! ## Fields with one byte replaced -/

/-- The same frame with another field. -/
def withField (framing : Framing buffer) (first second : UInt8) :
    Framing (framing.noise ++ startMark ::
      (framing.payload ++ endMark :: first :: second :: framing.rest)) where
  noise := framing.noise
  payload := framing.payload
  first := first
  second := second
  rest := framing.rest
  startMark_not_mem := framing.startMark_not_mem
  endMark_not_mem := framing.endMark_not_mem
  buffer_eq := rfl

/-- In place of the first digit only the same digit passes, and for a zero also a plus sign. -/
theorem intact_withField_first {framing : Framing buffer} (h : framing.Checks) (b : UInt8) :
    (framing.withField b framing.second).frame.intact = true ↔
      byteDigit? b = byteDigit? framing.first ∨
        (b = plusSign ∧ byteDigit? framing.first = some 0) := by
  obtain ⟨high, low, hhigh, hlow, hvalue⟩ := h
  have hlowBound := byteDigit?_lt hlow
  rw [intact_iff]
  constructor
  · rintro (⟨high', low', hhigh', hlow', hvalue'⟩ | ⟨hsign, hdigit⟩)
    · obtain rfl : low = low' := Option.some.inj (hlow.symm.trans hlow')
      have hsame : high' = high := by
        have hsums : 16 * high' + low = 16 * high + low := hvalue'.trans hvalue.symm
        omega
      exact Or.inl (hhigh'.trans (hsame ▸ hhigh.symm))
    · have hdigit' : low = byteSum framing.payload % 256 :=
        Option.some.inj (hlow.symm.trans hdigit)
      have hzero : high = 0 := by omega
      exact Or.inr ⟨hsign, hzero ▸ hhigh⟩
  · rintro (hsame | ⟨hsign, hzero⟩)
    · exact Or.inl ⟨high, low, hsame.trans hhigh, hlow, hvalue⟩
    · obtain rfl : 0 = high := Option.some.inj (hzero.symm.trans hhigh)
      refine Or.inr ⟨hsign, ?_⟩
      have hsum : low = byteSum framing.payload % 256 := by omega
      exact hlow.trans (congrArg some hsum)

/-- In place of the second digit only the same digit passes. -/
theorem intact_withField_second {framing : Framing buffer} (h : framing.Checks) (b : UInt8) :
    (framing.withField framing.first b).frame.intact = true ↔
      byteDigit? b = byteDigit? framing.second := by
  obtain ⟨high, low, hhigh, hlow, hvalue⟩ := h
  rw [intact_iff]
  constructor
  · rintro (⟨high', low', hhigh', hlow', hvalue'⟩ | ⟨hsign, -⟩)
    · obtain rfl : high = high' := Option.some.inj (hhigh.symm.trans hhigh')
      have hsame : low' = low := by
        have hsums : 16 * high + low' = 16 * high + low := hvalue'.trans hvalue.symm
        omega
      exact hlow'.trans (hsame ▸ hlow.symm)
    · have hplus : framing.first = plusSign := hsign
      rw [hplus, byteDigit?_plusSign] at hhigh
      cases hhigh
  · intro hsame
    exact Or.inl ⟨high, low, hhigh, hsame.trans hlow, hvalue⟩

end Framing

/-- A frame is found intact exactly if its field holds two digits of the value of the sum, or a plus
sign and one digit of that value.  Where one byte of two right digits is replaced, the frame fails
unless it is by the same digit, or a leading zero by a plus sign. -/
theorem intact_iff_of_extract? {buffer rest : Bytes} {frame : Frame}
    (h : extract? buffer = some (frame, rest)) :
    ∃ framing : Framing buffer, framing.frame = frame ∧ framing.rest = rest ∧
      (frame.intact = true ↔ framing.Checks ∨ framing.ChecksSigned) ∧
      (framing.Checks → ∀ b : UInt8,
        ((framing.withField b framing.second).frame.intact = true ↔
            byteDigit? b = byteDigit? framing.first ∨
              (b = plusSign ∧ byteDigit? framing.first = some 0)) ∧
          ((framing.withField framing.first b).frame.intact = true ↔
            byteDigit? b = byteDigit? framing.second)) := by
  obtain ⟨framing, rfl, rfl⟩ := exists_framing h
  refine ⟨framing, rfl, rfl, framing.intact_iff, ?_⟩
  intro hchecks b
  exact ⟨Framing.intact_withField_first hchecks b, Framing.intact_withField_second hchecks b⟩

/-- The payload `OK` and its field `9a`, in which neither digit may become a plus sign. -/
theorem intact_of_lower_case_field :
    extract? [0x24, 0x4F, 0x4B, 0x23, 0x39, 0x61] = some (⟨[0x4F, 0x4B], true, 6⟩, []) ∧
      ∃ framing : Framing [0x24, 0x4F, 0x4B, 0x23, 0x39, 0x61], framing.Checks ∧
        ¬ (framing.withField plusSign framing.second).frame.intact = true ∧
        (framing.withField framing.first 0x41).frame.intact = true := by
  have hfound : extract? [0x24, 0x4F, 0x4B, 0x23, 0x39, 0x61] =
      some (⟨[0x4F, 0x4B], true, 6⟩, []) := by
    decide +kernel
  obtain ⟨framing, -, -, -, hreplaced⟩ := intact_iff_of_extract? hfound
  have hframing : framing = ⟨[], [0x4F, 0x4B], 0x39, 0x61, [], by decide, by decide, rfl⟩ :=
    framing.eq_of_framing _
  have hchecks : framing.Checks := by
    rw [hframing]
    exact ⟨9, 10, by decide, by decide, by decide⟩
  refine ⟨hfound, framing, hchecks, ?_, ?_⟩
  · rw [(hreplaced hchecks plusSign).1, hframing]
    decide
  · rw [(hreplaced hchecks 0x41).2, hframing]
    decide

/-- The empty payload passes with the field `+0`. -/
theorem not_checks_of_plus_sign :
    ¬ ∀ (buffer : Bytes) (framing : Framing buffer),
      framing.frame.intact = true → framing.Checks := by
  intro h
  let framing : Framing [0x24, 0x23, 0x2B, 0x30] :=
    ⟨[], [], 0x2B, 0x30, [], by decide, by decide, rfl⟩
  have hintact : framing.frame.intact = true := by decide +kernel
  obtain ⟨high, -, hhigh, -⟩ := h _ framing hintact
  have hsign : byteDigit? framing.first = none := byteDigit?_plusSign
  rw [hsign] at hhigh
  cases hhigh

end RemoteDebugger.Wire
