import RemoteDebugger.Prompt.Command
import RemoteDebugger.Proofs.Number.Printing
import RemoteDebugger.Proofs.Results

/-!
# Numbers at the prompt

A number is a numeral in decimal, or a numeral of another radix behind the sign of that radix.
`readNumber` reads exactly the numbers below 2³², by their mathematical value, and the command to set
a byte takes exactly those of them that fit.  A number that is printed behind a sign is read back.
-/

namespace RemoteDebugger.Prompt

open RemoteDebugger.Numeral

/-- What a number begins with, and the radix of its digits.  A decimal number begins with nothing. -/
def radixSigns : List (List Char × Nat) :=
  [(['0', 'x'], 16), (['0', 'X'], 16), (['0', 'o'], 8), (['0', 'O'], 8), ([], 10)]

/-- A text is a number: the sign of a radix, and a numeral of that radix. -/
def IsNumber (text : List Char) (number : Nat) : Prop :=
  ∃ sign radix digits, (sign, radix) ∈ radixSigns ∧ text = sign ++ digits ∧
    IsNumeral radix digits number

variable {text : List Char} {number : Nat}

/-! ## Reading a number -/

/-- The letter of a sign is no decimal digit. -/
theorem radixAndDigits_of_isNumeral (h : IsNumeral 10 text number) :
    radixAndDigits text = (10, text) := by
  have hletter : ∀ mark ∈ ['x', 'X', 'o', 'O'], mark ∉ text := by
    intro mark hmark
    apply h.not_mem mark
    · simp only [List.mem_cons, List.not_mem_nil, or_false] at hmark
      rcases hmark with rfl | rfl | rfl | rfl <;> rfl
    · rintro rfl
      simp at hmark
  unfold radixAndDigits
  split
  · exact absurd (List.mem_cons_of_mem '0' List.mem_cons_self) (hletter 'x' (by simp))
  · exact absurd (List.mem_cons_of_mem '0' List.mem_cons_self) (hletter 'X' (by simp))
  · exact absurd (List.mem_cons_of_mem '0' List.mem_cons_self) (hletter 'o' (by simp))
  · exact absurd (List.mem_cons_of_mem '0' List.mem_cons_self) (hletter 'O' (by simp))
  · rfl

/-- The letter behind a leading zero decides which sign a number has. -/
theorem isNumber_iff :
    IsNumber text number ↔
      IsNumeral (radixAndDigits text).1 (radixAndDigits text).2 number := by
  constructor
  · rintro ⟨sign, radix, digits, hsign, rfl, hnumeral⟩
    simp only [radixSigns, List.mem_cons, List.not_mem_nil, or_false, Prod.mk.injEq] at hsign
    rcases hsign with ⟨rfl, rfl⟩ | ⟨rfl, rfl⟩ | ⟨rfl, rfl⟩ | ⟨rfl, rfl⟩ | ⟨rfl, rfl⟩
    · exact hnumeral
    · exact hnumeral
    · exact hnumeral
    · exact hnumeral
    · rw [List.nil_append, radixAndDigits_of_isNumeral hnumeral]
      exact hnumeral
  · intro h
    unfold radixAndDigits at h
    split at h
    · exact ⟨['0', 'x'], 16, _, by simp [radixSigns], rfl, h⟩
    · exact ⟨['0', 'X'], 16, _, by simp [radixSigns], rfl, h⟩
    · exact ⟨['0', 'o'], 8, _, by simp [radixSigns], rfl, h⟩
    · exact ⟨['0', 'O'], 8, _, by simp [radixSigns], rfl, h⟩
    · exact ⟨[], 10, _, by simp [radixSigns], rfl, h⟩

theorem IsNumber.unique {other : Nat} (h : IsNumber text number) (hother : IsNumber text other) :
    number = other :=
  (isNumber_iff.mp h).unique (isNumber_iff.mp hother)

/-- Exactly the numbers below 2³² are read. -/
theorem readNumber_eq_ok_iff {word : String} :
    readNumber word = .ok number ↔ IsNumber word.toList number ∧ number < 4294967296 := by
  rw [readNumber, isNumber_iff, mapError_eq_ok_iff, read_eq_ok_iff (by decide)]

/-! ## Printed numbers -/

theorem radix_of_mem_radixSigns {sign : List Char} {radix : Nat} (h : (sign, radix) ∈ radixSigns) :
    1 < radix ∧ radix ≤ 16 := by
  have all : ∀ entry ∈ radixSigns, 1 < entry.2 ∧ entry.2 ≤ 16 := by decide
  exact all _ h

theorem isNumber_print {sign : List Char} {radix : Nat} (h : (sign, radix) ∈ radixSigns)
    (letters : Hex.LetterCase) (number : Nat) :
    IsNumber (sign ++ print letters radix number) number := by
  obtain ⟨hradix, hsixteen⟩ := radix_of_mem_radixSigns h
  exact ⟨sign, radix, _, h, rfl, isNumeral_print letters hradix hsixteen number⟩

/-! ## Addresses and lengths -/

/-- A text is an address: a hexadecimal numeral, perhaps behind `0x`. -/
def IsAddress (text : List Char) (number : Nat) : Prop :=
  ∃ digits, (text = digits ∨ text = '0' :: 'x' :: digits) ∧ IsNumeral 16 digits number

theorem readAddress_eq_ok_iff {word : String} {address : UInt16} :
    readAddress word = .ok address ↔ IsAddress word.toList address.toNat := by
  rw [readAddress, mapError_eq_ok_iff, readWord_eq_ok_iff]
  split
  · next digits htext =>
      rw [htext]
      constructor
      · intro h
        exact ⟨digits, .inr rfl, h⟩
      · intro h
        obtain ⟨other, hother | hother, hnumeral⟩ := h
        · -- the letter of the sign is no hexadecimal digit
          have hmem : 'x' ∈ other := by simp [← hother]
          exact absurd hmem (hnumeral.not_mem 'x' rfl (by decide))
        · simp only [List.cons.injEq, true_and] at hother
          rwa [hother]
  · next hunsigned =>
      constructor
      · intro h
        exact ⟨_, .inl rfl, h⟩
      · intro h
        obtain ⟨digits, hplain | hsigned, hnumeral⟩ := h
        · rwa [hplain]
        · exact absurd hsigned (hunsigned digits)

theorem readLength_eq_ok_iff {word : String} {length : UInt16} :
    readLength word = .ok length ↔ IsNumeral 10 word.toList length.toNat := by
  rw [readLength, mapError_eq_ok_iff, readWord_eq_ok_iff]

/-! ## Numbers that have to fit -/

theorem narrow_eq_ok_iff {limit value : Nat} :
    narrow limit value = .ok number ↔ number = value ∧ value < limit := by
  rw [narrow]
  by_cases hfits : value < limit
  · simp [hfits, eq_comm]
  · simp [hfits]

/-- A number is narrowed exactly if it stays below the limit. -/
theorem narrow_readNumber_eq_ok_iff {limit : Nat} {word : String} (hlimit : limit ≤ 4294967296) :
    readNumber word >>= narrow limit = .ok number ↔
      IsNumber word.toList number ∧ number < limit := by
  simp only [bind_eq_ok_iff, readNumber_eq_ok_iff, narrow_eq_ok_iff]
  constructor
  · intro h
    obtain ⟨value, ⟨hvalue, -⟩, hsame, hfits⟩ := h
    rw [hsame]
    exact ⟨hvalue, hfits⟩
  · intro h
    obtain ⟨hnumber, hfits⟩ := h
    exact ⟨number, ⟨hnumber, Nat.lt_of_lt_of_le hfits hlimit⟩, rfl, hfits⟩

/-- The command to set a byte takes an address below 2¹⁶ and a value below 2⁸. -/
theorem readCommand_set_eq_ok_iff {address value : String} {command : Command} :
    readCommand "set" [address, value] = .ok command ↔
      ∃ place content, (IsNumber address.toList place ∧ place < 65536) ∧
        (IsNumber value.toList content ∧ content < 256) ∧
        command = .set (UInt16.ofNat place) (UInt8.ofNat content) := by
  have hset : readCommand "set" [address, value] =
      (readNumber address >>= narrow 65536) >>= fun place =>
        (readNumber value >>= narrow 256) >>= fun content =>
          .ok (.set (UInt16.ofNat place) (UInt8.ofNat content)) :=
    rfl
  rw [hset, bind_eq_ok_iff]
  simp only [narrow_readNumber_eq_ok_iff (show 65536 ≤ 4294967296 by decide)]
  apply exists_congr
  intro place
  rw [bind_eq_ok_iff, exists_and_left]
  simp only [narrow_readNumber_eq_ok_iff (show 256 ≤ 4294967296 by decide), Except.ok.injEq,
    eq_comm (b := command)]

theorem ofWords_set_eq_ok_iff {address value : String} {command : Command} :
    Command.ofWords ["set", address, value] = .ok (some command) ↔
      ∃ place content, (IsNumber address.toList place ∧ place < 65536) ∧
        (IsNumber value.toList content ∧ content < 256) ∧
        command = .set (UInt16.ofNat place) (UInt8.ofNat content) := by
  have hwords : Command.ofWords ["set", address, value] =
      some <$> readCommand "set" [address, value] :=
    rfl
  rw [hwords, map_eq_ok_iff, ← readCommand_set_eq_ok_iff]
  simp

/-! ## All texts -/

/-- Exactly the numbers below 2³² are read, each as what it denotes, and everything else is an error.
So the command to set a byte takes exactly the addresses up to 65535 and the values up to 255, and a
number that is printed behind the sign of its radix is read back. -/
theorem readNumber_exact (word : String) :
    (∀ number, readNumber word = .ok number ↔
      IsNumber word.toList number ∧ number < 4294967296) ∧
    ((∃ error, readNumber word = .error error) ↔
      ¬ ∃ number, IsNumber word.toList number ∧ number < 4294967296) ∧
    (∀ value command, Command.ofWords ["set", word, value] = .ok (some command) ↔
      ∃ place content, (IsNumber word.toList place ∧ place ≤ 65535) ∧
        (IsNumber value.toList content ∧ content ≤ 255) ∧
        command = .set (UInt16.ofNat place) (UInt8.ofNat content)) ∧
    ∀ sign radix, (sign, radix) ∈ radixSigns → ∀ letters number result,
      readNumber (String.ofList (sign ++ print letters radix number)) = .ok result ↔
        result = number ∧ number < 4294967296 := by
  refine ⟨fun number => readNumber_eq_ok_iff, ?_, ?_, ?_⟩
  · simp only [← readNumber_eq_ok_iff]
    rcases readNumber word with error | number
    · simp
    · simp
  · intro value command
    rw [ofWords_set_eq_ok_iff]
    simp only [Nat.lt_succ_iff]
  · intro sign radix hsign letters number result
    have hprinted := isNumber_print hsign letters number
    rw [readNumber_eq_ok_iff, String.toList_ofList]
    constructor
    · intro h
      obtain ⟨hresult, hfits⟩ := h
      obtain rfl := hresult.unique hprinted
      exact ⟨rfl, hfits⟩
    · intro h
      obtain ⟨hsame, hfits⟩ := h
      rw [hsame]
      exact ⟨hprinted, hfits⟩

/-- The largest number is read behind a sign and in letters of upper case, and the next one is not. -/
theorem readNumber_exact_at_limit :
    (['0', 'X'], 16) ∈ radixSigns ∧
      String.ofList (['0', 'X'] ++ print .upper 16 4294967295) = "0XFFFFFFFF" ∧
      readNumber "0XFFFFFFFF" = .ok 4294967295 ∧
      String.ofList (['0', 'X'] ++ print .upper 16 4294967296) = "0X100000000" ∧
      readNumber "0X100000000" ≠ .ok 4294967296 := by
  have hsign : (['0', 'X'], 16) ∈ radixSigns := by decide
  have hlargest : String.ofList (['0', 'X'] ++ print .upper 16 4294967295) = "0XFFFFFFFF" := by
    decide +kernel
  have hnext : String.ofList (['0', 'X'] ++ print .upper 16 4294967296) = "0X100000000" := by
    decide +kernel
  obtain ⟨-, -, -, hprinted⟩ := readNumber_exact "0XFFFFFFFF"
  refine ⟨hsign, hlargest, ?_, hnext, ?_⟩
  · rw [← hlargest]
    exact (hprinted _ _ hsign .upper 4294967295 4294967295).mpr ⟨rfl, by decide⟩
  · rw [← hnext]
    intro hread
    obtain ⟨-, hfits⟩ := (hprinted _ _ hsign .upper 4294967296 4294967296).mp hread
    exact absurd hfits (by decide)

end RemoteDebugger.Prompt
