import RemoteDebugger.Target.Reply

/-!
# Memory

Memory is sent as a byte string of a known length, two hexadecimal digits a byte.  A reply that is
not such a byte string and begins with `E` is an error of the target; one that is, is data,
whatever its first digit.
-/

namespace RemoteDebugger.Target

/-- Decode a reply of `length` bytes. -/
def decodeBytes (payload : Bytes) (length : Nat) :
    Except Error { bytes : Bytes // bytes.length = length } :=
  match Hex.decode (payload.map Char.ofUInt8) with
  | .ok bytes =>
    if h : bytes.length = length then .ok ⟨bytes, h⟩
    else if isErrorReply payload then .error (remoteError payload)
    else .error (.protocol (.wrongLength length bytes.length))
  | .error fault =>
    if isErrorReply payload then .error (remoteError payload)
    else .error (.protocol (.invalidHex fault payload))

/-- Decode a reply to the request for `length` bytes of memory. -/
def decodeMemory (payload : Bytes) (length : UInt16) : Except Error Bytes :=
  (·.val) <$> decodeBytes payload length.toNat

/-- Whether a reply acknowledges a memory write. -/
def isWriteAck (payload : Bytes) : Bool :=
  payload == ['O'.toUInt8, 'K'.toUInt8]

/-- Groups of two bytes each. -/
def pairs : Bytes → List Bytes
  | first :: second :: rest => [first, second] :: pairs rest
  | [single] => [[single]]
  | [] => []

/-- Groups of two bytes, where a byte that is left over comes first. -/
def dumpGroups (bytes : Bytes) : List Bytes :=
  if bytes.length % 2 = 0 then pairs bytes
  else bytes.take 1 :: pairs (bytes.drop 1)

/-- A dump of memory: groups of two bytes with colons between them. -/
def renderMemory (bytes : Bytes) : String :=
  String.ofList ([':'].intercalate ((dumpGroups bytes).map Hex.encode))

end RemoteDebugger.Target
