import RemoteDebugger.Proofs.Number.Digits
import RemoteDebugger.Proofs.Text.Utf8
import RemoteDebugger.Target.Request
import RemoteDebugger.Wire.Frame

/-!
# Requests as the target reads them

The target has only the payload of a frame to go by.  `Request.ofPayload?` reads it back: a word,
addresses and lengths of exactly four digits, and as many bytes of data as the length says.  Every
request that fits one packet is read back as itself, and no payload holds the mark that would end
its frame early.
-/

namespace RemoteDebugger.Target

open RemoteDebugger.Hex RemoteDebugger.Text

/-! ## Reading a request -/

/-- The address and the length that a text begins with, and what follows them. -/
def readRange? : List Char → Option (UInt16 × UInt16 × List Char)
  | a₁ :: a₂ :: a₃ :: a₄ :: ',' :: n₁ :: n₂ :: n₃ :: n₄ :: rest => do
    let address ← readDigits? [a₁, a₂, a₃, a₄]
    let length ← readDigits? [n₁, n₂, n₃, n₄]
    return (UInt16.ofNat address, UInt16.ofNat length, rest)
  | _ => none

/-- The request that a text spells. -/
def Request.ofText? : List Char → Option Request
  | ['?'] => some (.control .query)
  | ['t'] => some (.control .halt)
  | ['s'] => some (.control .step)
  | ['c'] => some (.control .resume)
  | ['g'] => some .registers
  | ['r'] => some .reset
  | 'm' :: text =>
    match readRange? text with
    | some (address, length, []) => some (.readMemory address length)
    | _ => none
  | 'M' :: text =>
    match readRange? text with
    | some (address, length, ':' :: digits) =>
      match Hex.decode digits with
      | .ok data => if data.length = length.toNat then some (.writeMemory address data) else none
      | .error _ => none
    | _ => none
  | text => if text = "qPeripherals".toList then some .peripherals else none

/-- The request that a payload carries. -/
def Request.ofPayload? (payload : Bytes) : Option Request :=
  decodeUtf8? payload >>= fun text => Request.ofText? text.toList

/-! ## Digits -/

theorem readDigits?_append (front back : List Char) :
    readDigits? (front ++ back) =
      readDigits? front >>= fun value =>
        back.foldlM (fun value c => (Hex.digitValue? c).map (value * 16 + ·)) value := by
  simp [readDigits?]

/-- A number that is written in a fixed width is read back. -/
theorem readDigits?_fixed {width number : Nat} (letters : LetterCase) (h : number < 16 ^ width) :
    readDigits? (fixed letters width number) = some number := by
  induction width generalizing number with
  | zero =>
      obtain rfl : number = 0 := by simpa using h
      rfl
  | succ width ih =>
      have hfront : number / 16 < 16 ^ width := by
        rw [Nat.pow_succ] at h
        omega
      have hdigit : number % 16 < 16 := Nat.mod_lt _ (by decide)
      have hsum : number / 16 * 16 + number % 16 = number := by omega
      rw [fixed, readDigits?_append, ih hfront]
      simp [digitValue?_digit hdigit, hsum]

theorem readRange?_fixed (address length : UInt16) (rest : List Char) :
    readRange? (fixed .upper 4 address.toNat ++ ',' :: (fixed .upper 4 length.toNat ++ rest)) =
      some (address, length, rest) := by
  have haddress : readDigits? (fixed .upper 4 address.toNat) = some address.toNat :=
    readDigits?_fixed .upper address.toNat_lt
  have hlength : readDigits? (fixed .upper 4 length.toNat) = some length.toNat :=
    readDigits?_fixed .upper length.toNat_lt
  simp only [fixed, List.nil_append, List.cons_append] at haddress hlength ⊢
  simp only [readRange?, haddress, hlength]
  simp

/-! ## Every request is read back -/

theorem Request.text_eq (request : Request) :
    request.text = String.ofList (request.name.toList ++ request.arguments) := by
  simp [Request.text]

/-- The length of data that fits is written in exactly four digits. -/
theorem padded_of_fits {length : Nat} (h : length ≤ Request.maxWrite) :
    padded .upper 4 length = fixed .upper 4 (UInt16.ofNat length).toNat := by
  have hfits : length < 2 ^ 16 := Nat.lt_succ_of_le h
  have hword : (UInt16.ofNat length).toNat = length := UInt16.toNat_ofNat_of_lt' hfits
  have hdigits : length.log2 / 4 < 4 := by
    by_cases hzero : length = 0
    · subst hzero
      decide
    · have hlog : length.log2 < 16 := (Nat.log2_lt hzero).mpr hfits
      omega
  rw [padded_eq_fixed hdigits, hword]

theorem Request.ofText?_text {request : Request} (h : request.oversize? = none) :
    Request.ofText? (request.name.toList ++ request.arguments) = some request := by
  cases request with
  | control action => cases action <;> rfl
  | registers => rfl
  | readMemory address length =>
      have hrange := readRange?_fixed address length []
      rw [List.append_nil] at hrange
      simp [name, arguments, ofText?, hrange]
  | writeMemory address data =>
      have hfits : data.length ≤ maxWrite := by simpa [oversize?] using h
      have hword : (UInt16.ofNat data.length).toNat = data.length :=
        UInt16.toNat_ofNat_of_lt' (Nat.lt_succ_of_le hfits)
      have hrange := readRange?_fixed address (UInt16.ofNat data.length) (':' :: Hex.encode data)
      rw [← padded_of_fits hfits] at hrange
      simp [name, arguments, ofText?, hrange, decode_encode, hword]
  | reset => rfl
  | peripherals => rfl

/-! ## No payload ends its frame -/

theorem Request.digit_or_separator {request : Request} {c : Char} (h : c ∈ request.arguments) :
    c = ',' ∨ c = ':' ∨ ∃ letters, ∃ value < 16, c = digit letters value := by
  cases request with
  | readMemory address length =>
      rcases List.mem_append.mp h with haddress | hrest
      · exact Or.inr (Or.inr ⟨.upper, exists_of_mem_fixed haddress⟩)
      · rcases List.mem_cons.mp hrest with hcomma | hlength
        · exact Or.inl hcomma
        · exact Or.inr (Or.inr ⟨.upper, exists_of_mem_fixed hlength⟩)
  | writeMemory address data =>
      rcases List.mem_append.mp h with hrange | hrest
      · rcases List.mem_append.mp hrange with haddress | hlength
        · exact Or.inr (Or.inr ⟨.upper, exists_of_mem_fixed haddress⟩)
        · rcases List.mem_cons.mp hlength with hcomma | hlength
          · exact Or.inl hcomma
          · exact Or.inr (Or.inr ⟨.upper, exists_of_mem_fixed hlength⟩)
      · rcases List.mem_cons.mp hrest with hcolon | hdata
        · exact Or.inr (Or.inl hcolon)
        · exact Or.inr (Or.inr ⟨.lower, exists_of_mem_flatMap_byte hdata⟩)
  | _ => cases h

/-- Every character of a request is one byte, and none of them ends a frame. -/
theorem Request.ascii_text (request : Request) :
    ∀ c ∈ request.name.toList ++ request.arguments, c.toNat < 128 ∧ c ≠ '#' := by
  have hname : ∀ c ∈ request.name.toList, c.toNat < 128 ∧ c ≠ '#' := by
    cases request with
    | control action => cases action <;> simp [name]
    | _ => simp [name]
  intro c hc
  rcases List.mem_append.mp hc with hc | hc
  · exact hname c hc
  · rcases digit_or_separator hc with rfl | rfl | ⟨letters, value, hvalue, rfl⟩
    · decide
    · decide
    · exact ⟨digit_ascii hvalue letters, (digit_ne_mark hvalue letters).2 '#' (by simp)⟩

theorem Request.payload_eq (request : Request) :
    request.payload = (request.name.toList ++ request.arguments).map Char.toUInt8 := by
  rw [payload, text_eq, encodeUtf8_of_ascii]
  intro c hc
  exact (request.ascii_text c hc).1

theorem Request.endMark_not_mem_payload (request : Request) :
    Wire.endMark ∉ request.payload := by
  rw [payload_eq]
  intro hend
  obtain ⟨c, hc, hbyte⟩ := List.mem_map.mp hend
  obtain ⟨hascii, hmark⟩ := request.ascii_text c hc
  have hcode : c.toNat = '#'.toNat := by
    rw [← toNat_toUInt8_of_ascii hascii, hbyte]
    rfl
  exact hmark (Char.toNat_inj.mp hcode)

/-- A request that fits one packet is read back from its payload. -/
theorem Request.ofPayload?_payload {request : Request} (h : request.oversize? = none) :
    Request.ofPayload? request.payload = some request := by
  rw [ofPayload?, payload, decodeUtf8?_encodeUtf8, text_eq]
  simpa using ofText?_text h

end RemoteDebugger.Target
