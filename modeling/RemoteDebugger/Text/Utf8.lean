import RemoteDebugger.Bytes

/-!
# UTF-8

Text as bytes and back.  Strict reading accepts exactly the encodings of texts.  Lenient reading
accepts every byte string: a maximal part that no encoding continues counts as one replacement
character.
-/

namespace RemoteDebugger.Text

/-- The encoding of a text. -/
def encodeUtf8 (text : String) : Bytes :=
  text.toUTF8.data.toList

/-- The text with the given encoding. -/
def decodeUtf8? (bytes : Bytes) : Option String :=
  String.fromUTF8? bytes.toByteArray

/-! ## Lenient reading -/

/-- What stands for a part that is no encoding of a character. -/
def replacement : Char := Char.ofNat 0xFFFD

/-- A character whose encoding is not complete yet: the bytes still owed, the range in which the
next one must lie, and the bits read so far. -/
structure Incomplete where
  owed : Nat
  low : UInt8
  high : UInt8
  bits : Nat
  deriving DecidableEq, Repr

/-- What the first byte of an encoding says. -/
inductive Lead where
  | complete (c : Char)
  | incomplete (state : Incomplete)
  | invalid
  deriving DecidableEq, Repr

/-- Read the first byte of an encoding.  The range of the second byte excludes encodings that are
longer than needed, surrogates, and numbers above the last code point. -/
def Lead.ofByte (b : UInt8) : Lead :=
  if b < 0x80 then .complete (Char.ofUInt8 b)
  else if b < 0xC2 then .invalid
  else if b < 0xE0 then .incomplete ⟨1, 0x80, 0xBF, b.toNat - 0xC0⟩
  else if b = 0xE0 then .incomplete ⟨2, 0xA0, 0xBF, 0⟩
  else if b = 0xED then .incomplete ⟨2, 0x80, 0x9F, 0xD⟩
  else if b < 0xF0 then .incomplete ⟨2, 0x80, 0xBF, b.toNat - 0xE0⟩
  else if b = 0xF0 then .incomplete ⟨3, 0x90, 0xBF, 0⟩
  else if b < 0xF4 then .incomplete ⟨3, 0x80, 0xBF, b.toNat - 0xF0⟩
  else if b = 0xF4 then .incomplete ⟨3, 0x80, 0x8F, 4⟩
  else .invalid

/-- The characters read so far, the latest first, and the one being read. -/
structure LossyState where
  read : List Char := []
  current : Option Incomplete := none
  deriving DecidableEq, Repr

/-- Read a byte between characters. -/
def LossyState.start (read : List Char) (b : UInt8) : LossyState :=
  match Lead.ofByte b with
  | .complete c => ⟨c :: read, none⟩
  | .incomplete state => ⟨read, some state⟩
  | .invalid => ⟨replacement :: read, none⟩

/-- Read one byte.  A byte outside the range that the current character needs ends that character
as an invalid part and starts the next one. -/
def LossyState.step (state : LossyState) (b : UInt8) : LossyState :=
  match state.current with
  | none => .start state.read b
  | some c =>
    if c.low ≤ b ∧ b ≤ c.high then
      let bits := c.bits * 64 + (b.toNat - 0x80)
      if c.owed ≤ 1 then ⟨Char.ofNat bits :: state.read, none⟩
      else ⟨state.read, some ⟨c.owed - 1, 0x80, 0xBF, bits⟩⟩
    else .start (replacement :: state.read) b

/-- The characters read once the input ends. -/
def LossyState.finish (state : LossyState) : List Char :=
  match state.current with
  | none => state.read.reverse
  | some _ => (replacement :: state.read).reverse

/-- The text of any byte string, with one replacement character for each maximal invalid part. -/
def decodeLossy (bytes : Bytes) : List Char :=
  (bytes.foldl LossyState.step {}).finish

end RemoteDebugger.Text
