import RemoteDebugger.Bytes

/-!
# Hexadecimal text

Digits of either letter case, numbers of a fixed or a least width, and byte strings written as two
digits a byte.  Reading accepts both letter cases; a text that is no byte string is refused at its
first character that is no digit, or for its odd length before that.
-/

namespace RemoteDebugger.Hex

/-! ## Digits -/

/-- The letters used for the digits above nine. -/
inductive LetterCase where
  | lower
  | upper
  deriving DecidableEq, Repr

/-- The digit of a value below sixteen. -/
def digit (letters : LetterCase) (value : Nat) : Char :=
  if value < 10 then Char.ofNat (48 + value)
  else match letters with
    | .lower => Char.ofNat (87 + value)
    | .upper => Char.ofNat (55 + value)

/-- The value of a digit of either letter case. -/
def digitValue? (c : Char) : Option Nat :=
  if '0' ≤ c ∧ c ≤ '9' then some (c.toNat - 48)
  else if 'a' ≤ c ∧ c ≤ 'f' then some (c.toNat - 87)
  else if 'A' ≤ c ∧ c ≤ 'F' then some (c.toNat - 55)
  else none

theorem digitValue?_digit {value : Nat} (h : value < 16) (letters : LetterCase) :
    digitValue? (digit letters value) = some value := by
  have all : ∀ v : Fin 16, ∀ l ∈ [LetterCase.lower, .upper],
      digitValue? (digit l v) = some v.val := by decide
  exact all ⟨value, h⟩ letters (by cases letters <;> simp)

theorem digitValue?_lt {c : Char} {value : Nat} (h : digitValue? c = some value) : value < 16 := by
  unfold digitValue? at h
  simp only [Char.le_def, UInt32.le_iff_toNat_le] at h
  simp only [Char.toNat] at h
  have h0 : ('0' : Char).val.toNat = 48 := rfl
  have h9 : ('9' : Char).val.toNat = 57 := rfl
  have ha : ('a' : Char).val.toNat = 97 := rfl
  have hf : ('f' : Char).val.toNat = 102 := rfl
  have hA : ('A' : Char).val.toNat = 65 := rfl
  have hF : ('F' : Char).val.toNat = 70 := rfl
  split at h
  · cases h; omega
  split at h
  · cases h; omega
  split at h
  · cases h; omega
  · simp at h

/-! ## Numbers -/

/-- The last `width` digits of a number. -/
def fixed (letters : LetterCase) : (width : Nat) → (number : Nat) → List Char
  | 0, _ => []
  | width + 1, number => fixed letters width (number / 16) ++ [digit letters (number % 16)]

@[simp] theorem length_fixed (letters : LetterCase) (width number : Nat) :
    (fixed letters width number).length = width := by
  induction width generalizing number with
  | zero => rfl
  | succ width ih => simp [fixed, ih]

/-- All digits of a number, filled up with zeros to at least `width` digits. -/
def padded (letters : LetterCase) (width number : Nat) : List Char :=
  fixed letters (max width (number.log2 / 4 + 1)) number

/-- A number that needs no more digits than the width is written with exactly that many. -/
theorem padded_eq_fixed {width number : Nat} (h : number.log2 / 4 < width)
    (letters : LetterCase) : padded letters width number = fixed letters width number := by
  unfold padded
  rw [Nat.max_eq_left h]

/-! ## Byte strings -/

/-- The two digits of a byte. -/
def byte (letters : LetterCase) (b : UInt8) : List Char :=
  [digit letters (b.toNat / 16), digit letters (b.toNat % 16)]

/-- A byte string in lower-case digits, two a byte. -/
def encode (bytes : Bytes) : List Char :=
  bytes.flatMap (byte .lower)

/-- Why a text is no byte string. -/
inductive Fault where
  | oddLength
  | invalidCharacter (character : Char) (index : Nat)
  deriving DecidableEq, Repr

/-- Read pairs of digits, given the bytes read so far, the latest first, and the index of the next
digit. -/
def decodeFrom (read : Bytes) (index : Nat) : List Char → Except Fault Bytes
  | high :: low :: rest =>
    match digitValue? high, digitValue? low with
    | some h, some l => decodeFrom (UInt8.ofNat (16 * h + l) :: read) (index + 2) rest
    | some _, none => .error (.invalidCharacter low (index + 1))
    | none, _ => .error (.invalidCharacter high index)
  | _ => .ok read.reverse

/-- The bytes that a text spells, two digits a byte. -/
def decode (digits : List Char) : Except Fault Bytes :=
  if digits.length % 2 = 1 then .error .oddLength else decodeFrom [] 0 digits

theorem length_flatMap_byte (letters : LetterCase) (bytes : Bytes) :
    (bytes.flatMap (byte letters)).length = 2 * bytes.length := by
  induction bytes with
  | nil => rfl
  | cons b bytes ih =>
    simp only [List.flatMap_cons, List.length_append, List.length_cons, ih]
    simp [byte]
    omega

@[simp] theorem length_encode (bytes : Bytes) : (encode bytes).length = 2 * bytes.length :=
  length_flatMap_byte .lower bytes

theorem decodeFrom_flatMap_byte (letters : LetterCase) (read : Bytes) (index : Nat)
    (bytes : Bytes) :
    decodeFrom read index (bytes.flatMap (byte letters)) = .ok (read.reverse ++ bytes) := by
  induction bytes generalizing read index with
  | nil => simp [decodeFrom]
  | cons b bytes ih =>
    have hhigh : b.toNat / 16 < 16 := by have := b.toNat_lt; omega
    have hlow : b.toNat % 16 < 16 := Nat.mod_lt _ (by decide)
    have hbyte : UInt8.ofNat (16 * (b.toNat / 16) + b.toNat % 16) = b := by
      rw [Nat.div_add_mod]; exact UInt8.ofNat_toNat
    simp only [List.flatMap_cons, byte, List.cons_append, List.nil_append, decodeFrom,
      digitValue?_digit hhigh, digitValue?_digit hlow, hbyte]
    simpa [byte] using ih (b :: read) (index + 2)

/-- Reading undoes writing in digits of either letter case. -/
theorem decode_flatMap_byte (letters : LetterCase) (bytes : Bytes) :
    decode (bytes.flatMap (byte letters)) = .ok bytes := by
  have heven : ¬ (bytes.flatMap (byte letters)).length % 2 = 1 := by
    rw [length_flatMap_byte]
    omega
  rw [decode, if_neg heven, decodeFrom_flatMap_byte]
  rfl

/-- Reading undoes writing. -/
theorem decode_encode (bytes : Bytes) : decode (encode bytes) = .ok bytes :=
  decode_flatMap_byte .lower bytes

end RemoteDebugger.Hex
