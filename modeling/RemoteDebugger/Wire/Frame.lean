import RemoteDebugger.Cut
import RemoteDebugger.Number.Numeral

/-!
# Frames

A frame is `$`, a payload, `#` and two checksum digits.  There is no escaping, so the payload ends
at the first `#` after the first `$`; whatever comes before that `$` belongs to no frame and is
skipped.  `extract?` takes the first complete frame from a buffer and `drain` all of them.
-/

namespace RemoteDebugger.Wire

/-- The byte that opens a frame, `$`. -/
def startMark : UInt8 := 0x24

/-- The byte that ends the payload of a frame, `#`. -/
def endMark : UInt8 := 0x23

/-- The sum of all bytes modulo 256. -/
def checksum (bytes : Bytes) : UInt8 :=
  bytes.foldl (· + ·) 0

/-- The two upper-case digits of a checksum. -/
def checksumDigits (sum : UInt8) : Bytes :=
  (Hex.byte .upper sum).map Char.toUInt8

/-- The frame around a payload. -/
def encode (payload : Bytes) : Bytes :=
  startMark :: payload ++ endMark :: checksumDigits (checksum payload)

/-- The checksum that two bytes claim, read as a hexadecimal numeral. -/
def claimedChecksum? (first second : UInt8) : Option Nat :=
  (Numeral.read 16 256 [Char.ofUInt8 first, Char.ofUInt8 second]).toOption

/-- A frame found in a buffer: its payload, whether the checksum matches, and the number of bytes
up to its end, those skipped before it included. -/
structure Frame where
  payload : Bytes
  intact : Bool
  consumed : Nat
  deriving DecidableEq, Repr

/-- The first complete frame of a buffer and what follows it. -/
def extract? (buffer : Bytes) : Option (Frame × Bytes) :=
  match cut? (· == startMark) buffer with
  | none => none
  | some (noise, opened) =>
    match cut? (· == endMark) opened with
    | some (payload, first :: second :: rest) =>
      some ({ payload
              intact := claimedChecksum? first second == some (checksum payload).toNat
              consumed := noise.length + payload.length + 4 }, rest)
    | _ => none

/-- A frame consumes at least its four bytes of framing, and never more than the buffer holds. -/
theorem extract?_length {buffer rest : Bytes} {frame : Frame}
    (h : extract? buffer = some (frame, rest)) :
    4 ≤ frame.consumed ∧ buffer.length = frame.consumed + rest.length := by
  unfold extract? at h
  split at h
  · cases h
  · next noise opened hstart =>
    split at h
    · next payload first second _ hend =>
      cases h
      obtain ⟨_, _, _, rfl⟩ := cut?_eq_some_iff.1 hstart
      obtain ⟨_, _, _, rfl⟩ := cut?_eq_some_iff.1 hend
      simp
      omega
    · cases h

/-- What follows a frame is the buffer without the bytes that the frame consumed. -/
theorem extract?_rest {buffer rest : Bytes} {frame : Frame}
    (h : extract? buffer = some (frame, rest)) : rest = buffer.drop frame.consumed := by
  unfold extract? at h
  split at h
  · cases h
  · next noise opened hstart =>
    split at h
    · next payload first second _ hend =>
      cases h
      obtain ⟨x, _, _, rfl⟩ := cut?_eq_some_iff.1 hstart
      obtain ⟨y, _, _, rfl⟩ := cut?_eq_some_iff.1 hend
      have hsplit : noise ++ x :: (payload ++ y :: first :: second :: rest) =
          (noise ++ x :: (payload ++ [y, first, second])) ++ rest := by simp
      rw [hsplit, List.drop_left' (by simp; omega)]
    · cases h

theorem extract?_rest_lt {buffer rest : Bytes} {frame : Frame}
    (h : extract? buffer = some (frame, rest)) : rest.length < buffer.length := by
  have := extract?_length h
  omega

/-- All complete frames of a buffer, in order, and the bytes that are left. -/
def drain (buffer : Bytes) : List Frame × Bytes :=
  match _h : extract? buffer with
  | none => ([], buffer)
  | some (frame, rest) =>
    let later := drain rest
    (frame :: later.1, later.2)
termination_by buffer.length
decreasing_by exact extract?_rest_lt _h

/-- The frames that each chunk completes when chunks arrive one after the other, and the bytes that
are left behind each. -/
def drainChunks (buffer : Bytes) : List Bytes → List (List Frame × Bytes)
  | [] => []
  | chunk :: later =>
    let drained := drain (buffer ++ chunk)
    drained :: drainChunks drained.2 later

end RemoteDebugger.Wire
