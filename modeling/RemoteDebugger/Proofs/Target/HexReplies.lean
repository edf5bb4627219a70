import RemoteDebugger.Proofs.Number.Denotation
import RemoteDebugger.Proofs.Target.Decoding
import RemoteDebugger.Proofs.Text.Utf8
import RemoteDebugger.Target.Registers

/-!
# Replies of hexadecimal digits

`E` opens the report of an error and is a digit as well.  What decides is whether a reply consists
of the digits of exactly as many bytes as were asked for: then it is data, whatever its first digit,
and otherwise `E` makes it an error of the target and anything else a malformed reply.  Memory and
registers are classified alike, and every byte string is read back from its digits.
-/

namespace RemoteDebugger.Target

open RemoteDebugger.Text

/-! ## Which replies are data -/

/-- Whether a byte is an ASCII digit of radix sixteen, in either letter case. -/
def IsHexDigit (b : UInt8) : Prop :=
  (0x30 ≤ b ∧ b ≤ 0x39) ∨ (0x41 ≤ b ∧ b ≤ 0x46) ∨ (0x61 ≤ b ∧ b ≤ 0x66)

/-- A payload of exactly the digits of `length` bytes. -/
structure IsHexData (payload : Bytes) (length : Nat) : Prop where
  length_eq : payload.length = 2 * length
  isHexDigit : ∀ b ∈ payload, IsHexDigit b

/-- A payload as the characters of its bytes. -/
def characters (payload : Bytes) : List Char :=
  payload.map Char.ofUInt8

theorem isSome_digitValue?_iff (b : UInt8) :
    (Hex.digitValue? (Char.ofUInt8 b)).isSome = true ↔ IsHexDigit b := by
  have hcode : (Char.ofUInt8 b).val.toNat = b.toNat := UInt8.toNat_toUInt32 b
  have hrange : ∀ low high : Char, (low ≤ Char.ofUInt8 b ∧ Char.ofUInt8 b ≤ high) ↔
      (low.val.toNat ≤ b.toNat ∧ b.toNat ≤ high.val.toNat) := by
    intro low high
    rw [Char.le_def, Char.le_def, UInt32.le_iff_toNat_le, UInt32.le_iff_toNat_le, hcode]
  simp only [Hex.digitValue?, hrange, IsHexDigit, UInt8.le_iff_toNat_le]
  split
  · next h => simpa using Or.inl h
  · next hdecimal =>
      split
      · next h => simpa using Or.inr (Or.inr h)
      · next hlower =>
          split
          · next h => simpa using Or.inr (Or.inl h)
          · next hupper =>
              simp only [Option.isSome_none, Bool.false_eq_true, false_iff, not_or]
              exact ⟨hdecimal, hupper, hlower⟩

theorem isHexData_iff (payload : Bytes) (length : Nat) :
    IsHexData payload length ↔
      ∃ bytes, Hex.Spells (characters payload) bytes ∧ bytes.length = length := by
  constructor
  · rintro ⟨hlength, hdigits⟩
    apply Hex.exists_spells
    · rw [characters, List.length_map, hlength]
    · intro c hc
      obtain ⟨b, hb, rfl⟩ := List.mem_map.mp hc
      exact (isSome_digitValue?_iff b).mpr (hdigits b hb)
  · rintro ⟨bytes, hspells, rfl⟩
    refine ⟨?_, ?_⟩
    · rw [← hspells.length_eq, characters, List.length_map]
    · intro b hb
      have hc : Char.ofUInt8 b ∈ characters payload := List.mem_map_of_mem hb
      exact (isSome_digitValue?_iff b).mp (hspells.isSome_digitValue? _ hc)

/-! ## The three ways in which a reply is taken -/

section Classification

variable {payload : Bytes} {length : Nat}

theorem length_ne_of_decode (h : ¬ IsHexData payload length) {bytes : Bytes}
    (hdecode : Hex.decode (characters payload) = .ok bytes) : bytes.length ≠ length := by
  intro hlength
  exact h ((isHexData_iff payload length).mpr ⟨bytes, Hex.decode_eq_ok_iff.mp hdecode, hlength⟩)

theorem decodeBytes_eq_ok_iff {data : { bytes : Bytes // bytes.length = length }} :
    decodeBytes payload length = .ok data ↔ Hex.Spells (characters payload) data.val := by
  obtain ⟨bytes, rfl⟩ := data
  rw [← Hex.decode_eq_ok_iff, characters, decodeBytes]
  cases Hex.decode (payload.map Char.ofUInt8) with
  | ok read =>
      by_cases hlength : read.length = bytes.length
      · simp [hlength]
      · have hne : read ≠ bytes := fun hsame => hlength (congrArg List.length hsame)
        cases isErrorReply payload <;> simp [hlength, hne]
  | error fault => cases isErrorReply payload <;> simp

/-- A payload that is not data is an error of the target or malformed, by its first byte. -/
theorem judges_decodeBytes :
    Judges payload (IsHexData payload length) (decodeBytes payload length) := by
  refine ⟨?_, ?_, ?_⟩
  · intro hdata
    obtain ⟨bytes, hspells, hlength⟩ := (isHexData_iff payload length).mp hdata
    exact ⟨⟨bytes, hlength⟩, decodeBytes_eq_ok_iff.mpr hspells⟩
  · intro hno hmark
    unfold decodeBytes
    cases hdecode : Hex.decode (payload.map Char.ofUInt8) with
    | ok bytes => simp [length_ne_of_decode hno hdecode, hmark]
    | error fault => simp [hmark]
  · intro hno hmark
    unfold decodeBytes
    cases hdecode : Hex.decode (payload.map Char.ofUInt8) with
    | ok bytes =>
        exact ⟨.wrongLength length bytes.length, by
          simp [length_ne_of_decode hno hdecode, hmark]⟩
    | error fault => exact ⟨.invalidHex fault payload, by simp [hmark]⟩

end Classification

/-- A decoder that takes exactly the digits of `length` bytes for data, other payloads that begin
with `E` for errors of the target, and the rest for malformed.  `value` gives the bytes of what is
decoded.  The message of an error of the target is the text that the rest of the payload is read
as, which is the text itself where it is valid. -/
structure Classifies {α : Type} (decode : Bytes → Except Error α) (value : α → Bytes)
    (length : Nat) : Prop where
  ok_iff : ∀ payload decoded, decode payload = .ok decoded ↔
    Hex.Spells (characters payload) (value decoded) ∧ (value decoded).length = length
  isOk_iff : ∀ payload, (∃ decoded, decode payload = .ok decoded) ↔ IsHexData payload length
  remote_iff : ∀ payload text, decode payload = .error (.remote text) ↔
    ¬ IsHexData payload length ∧ payload.head? = some 'E'.toUInt8 ∧
      text = String.ofList (decodeLossy payload.tail)
  remote_reads : ∀ payload text, decode payload = .error (.remote text) →
    ReadsAs payload.tail text.toList
  protocol_iff : ∀ payload, (∃ defect, decode payload = .error (.protocol defect)) ↔
    ¬ IsHexData payload length ∧ payload.head? ≠ some 'E'.toUInt8

/-- A decoder that builds its result from the bytes of `decodeBytes` classifies like it. -/
theorem classifies_of_map {α : Type} {length : Nat}
    {build : { bytes : Bytes // bytes.length = length } → α} {value : α → Bytes}
    (hvalue : ∀ data, value (build data) = data.val)
    (hbuild : ∀ decoded (h : (value decoded).length = length), build ⟨value decoded, h⟩ = decoded) :
    Classifies (fun payload => build <$> decodeBytes payload length) value length := by
  refine ⟨?_, ?_, ?_, ?_, ?_⟩
  · intro payload decoded
    rw [map_eq_ok_iff]
    constructor
    · rintro ⟨data, hdata, rfl⟩
      rw [hvalue]
      exact ⟨decodeBytes_eq_ok_iff.mp hdata, data.property⟩
    · rintro ⟨hspells, hlength⟩
      exact ⟨⟨value decoded, hlength⟩, decodeBytes_eq_ok_iff.mpr hspells, hbuild decoded hlength⟩
  · intro payload
    exact (judges_decodeBytes.map build).exists_ok_iff
  · intro payload text
    exact (judges_decodeBytes.map build).eq_remote_iff
  · intro payload text hremote
    exact (judges_decodeBytes.map build).readsAs_of_remote hremote
  · intro payload
    exact (judges_decodeBytes.map build).exists_protocol_iff

theorem classifies_decodeMemory (length : UInt16) :
    Classifies (fun payload => decodeMemory payload length) id length.toNat :=
  classifies_of_map (fun _ => rfl) (fun _ _ => rfl)

theorem classifies_decodeRegisters :
    Classifies decodeRegisters (fun registers => registers.bytes.toList) 7 := by
  apply classifies_of_map
  · intro data
    rfl
  · intro registers hlength
    rfl

/-! ## Registers -/

/-- The bytes of the register file, in order, by the names of the registers. -/
theorem Registers.exists_toList_eq (registers : Registers) :
    ∃ high low, registers.bytes.toList =
        [registers.ac, registers.xr, registers.yr, registers.sp, high, low, registers.sr] ∧
      registers.pc.toNat = 256 * high.toNat + low.toNat := by
  refine ⟨registers.bytes[4], registers.bytes[5], ?_, ?_⟩
  · obtain ⟨⟨⟨bytes⟩, hsize⟩⟩ := registers
    match bytes, hsize with
    | [_, _, _, _, _, _, _], _ => rfl
  · have hhigh := registers.bytes[4].toNat_lt
    have hlow := registers.bytes[5].toNat_lt
    have hfits : registers.bytes[4].toNat * 256 + registers.bytes[5].toNat < 65536 := by omega
    rw [pc, UInt16.toNat_ofNat_of_lt' hfits, Nat.mul_comm]

/-! ## Bytes that were written -/

/-- A byte string in digits of either letter case, as a payload. -/
def hexPayload (letters : Hex.LetterCase) (bytes : Bytes) : Bytes :=
  encodeUtf8 (String.ofList (bytes.flatMap (Hex.byte letters)))

theorem characters_hexPayload (letters : Hex.LetterCase) (bytes : Bytes) :
    characters (hexPayload letters bytes) = bytes.flatMap (Hex.byte letters) := by
  have hascii : ∀ c ∈ bytes.flatMap (Hex.byte letters), c.toNat < 128 := by
    intro c hc
    obtain ⟨value, hvalue, rfl⟩ := Hex.exists_of_mem_flatMap_byte hc
    exact Hex.digit_ascii hvalue letters
  have hsame : ∀ c ∈ bytes.flatMap (Hex.byte letters), Char.ofUInt8 c.toUInt8 = c := by
    intro c hc
    exact ofUInt8_toUInt8_of_ascii (hascii c hc)
  rw [hexPayload, encodeUtf8_of_ascii hascii, characters, List.map_map]
  exact (List.map_congr_left hsame).trans (List.map_id _)

/-- Replies that carry memory or registers are data, errors of the target or malformed by their
digits, their length and their first byte alone; the registers are the bytes of the data in a fixed
order, and memory is read back from its digits. -/
theorem hex_replies_classified :
    (∀ length : UInt16, Classifies (fun payload => decodeMemory payload length) id length.toNat) ∧
      Classifies decodeRegisters (fun registers => registers.bytes.toList) 7 ∧
      (∀ registers : Registers, ∃ high low, registers.bytes.toList =
          [registers.ac, registers.xr, registers.yr, registers.sp, high, low, registers.sr] ∧
        registers.pc.toNat = 256 * high.toNat + low.toNat) ∧
      ∀ (letters : Hex.LetterCase) (bytes : Bytes), bytes.length ≤ 65535 →
        decodeMemory (hexPayload letters bytes) (UInt16.ofNat bytes.length) = .ok bytes := by
  refine ⟨classifies_decodeMemory, classifies_decodeRegisters, Registers.exists_toList_eq, ?_⟩
  intro letters bytes hlength
  have hword : (UInt16.ofNat bytes.length).toNat = bytes.length :=
    UInt16.toNat_ofNat_of_lt' (Nat.lt_succ_of_le hlength)
  have hspells : Hex.Spells (characters (hexPayload letters bytes)) bytes := by
    rw [characters_hexPayload]
    exact Hex.decode_eq_ok_iff.mp (Hex.decode_flatMap_byte letters bytes)
  exact ((classifies_decodeMemory _).ok_iff _ _).mpr ⟨hspells, hword.symm⟩

/-- The bytes `E0 5F` in upper-case digits begin with the letter that marks an error.  One digit
less, and they are an error; so is a report of it, of which a byte that is no text is replaced. -/
theorem hex_replies_of_leading_mark :
    ([0xE0, 0x5F] : Bytes).length ≤ 65535 ∧
      hexPayload .upper [0xE0, 0x5F] = [0x45, 0x30, 0x35, 0x46] ∧
      isErrorReply [0x45, 0x30, 0x35, 0x46] = true ∧
      decodeMemory [0x45, 0x30, 0x35, 0x46] 2 = .ok [0xE0, 0x5F] ∧
      decodeMemory [0x45, 0x30, 0x35] 2 = .error (.remote "05") ∧
      decodeMemory [0x45, 0xC3, 0xB6, 0xFF] 2 = .error (.remote "ö\uFFFD") := by
  have hlength : ([0xE0, 0x5F] : Bytes).length ≤ 65535 := by decide
  have hpayload : hexPayload .upper [0xE0, 0x5F] = [0x45, 0x30, 0x35, 0x46] := by decide +kernel
  obtain ⟨hmemory, -, -, hread⟩ := hex_replies_classified
  have hdecode := hread .upper [0xE0, 0x5F] hlength
  rw [hpayload] at hdecode
  have hshort : ¬ IsHexData [0x45, 0x30, 0x35] 2 := fun h => absurd h.length_eq (by decide)
  have hdigit : ¬ IsHexDigit 0xFF := by
    unfold IsHexDigit
    decide
  have hother : ¬ IsHexData [0x45, 0xC3, 0xB6, 0xFF] 2 :=
    fun h => hdigit (h.isHexDigit 0xFF (by decide))
  refine ⟨hlength, hpayload, by decide, hdecode, ?_, ?_⟩
  · exact ((hmemory 2).remote_iff _ _).mpr ⟨hshort, rfl, by decide +kernel⟩
  · exact ((hmemory 2).remote_iff _ _).mpr ⟨hother, rfl, by decide +kernel⟩

end RemoteDebugger.Target
