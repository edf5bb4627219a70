import RemoteDebugger.Target.Peripheral
import RemoteDebugger.Target.Registers
import RemoteDebugger.Target.StopStatus

/-!
# Requests

What a debugger can ask of the target, how each request is written, and how the reply to it is
decoded.  Addresses and lengths are four upper-case hexadecimal digits.
-/

namespace RemoteDebugger.Target

/-- A request that is answered by the halt state. -/
inductive Control where
  /-- Only ask for the state. -/
  | query
  /-- Halt execution. -/
  | halt
  /-- Execute one instruction. -/
  | step
  /-- Resume execution. -/
  | resume
  deriving DecidableEq, Repr

/-- A request to the target. -/
inductive Request where
  /-- Control execution. -/
  | control (action : Control)
  /-- Read the register file. -/
  | registers
  /-- Read memory. -/
  | readMemory (address length : UInt16)
  /-- Write memory. -/
  | writeMemory (address : UInt16) (data : Bytes)
  /-- Reset the target, which does not answer. -/
  | reset
  /-- List the memory-mapped peripherals. -/
  | peripherals
  deriving DecidableEq, Repr

namespace Request

/-- The word that opens a request, which is also its name in messages. -/
def name : Request → String
  | control .query => "?"
  | control .halt => "t"
  | control .step => "s"
  | control .resume => "c"
  | registers => "g"
  | readMemory .. => "m"
  | writeMemory .. => "M"
  | reset => "r"
  | peripherals => "qPeripherals"

/-- What follows the word of a request. -/
def arguments : Request → List Char
  | readMemory address length =>
    Hex.fixed .upper 4 address.toNat ++ ',' :: Hex.fixed .upper 4 length.toNat
  | writeMemory address data =>
    Hex.fixed .upper 4 address.toNat ++ ',' :: Hex.padded .upper 4 data.length ++
      ':' :: Hex.encode data
  | _ => []

/-- The text of a request. -/
def text (request : Request) : String :=
  request.name ++ String.ofList request.arguments

/-- The payload of the frame that carries a request. -/
def payload (request : Request) : Bytes :=
  Text.encodeUtf8 request.text

/-- Whether the target answers a request with a frame. -/
def expectsReply : Request → Bool
  | reset => false
  | _ => true

/-- The most bytes that one memory write can carry, since four digits give their number. -/
def maxWrite : Nat := 65535

/-- The number of bytes of a memory write that does not fit one request. -/
def oversize? : Request → Option Nat
  | writeMemory _ data => if data.length ≤ maxWrite then none else some data.length
  | _ => none

/-! ## Replies -/

/-- What the reply to a request says. -/
@[reducible] def Reply : Request → Type
  | control _ => StopStatus
  | registers => Registers
  | readMemory .. => Bytes
  | writeMemory .. => Bool
  | reset => Unit
  | peripherals => List Peripheral

/-- Decode the reply to a request.  A memory write is answered by whether it was acknowledged. -/
def decode : (request : Request) → (payload : Bytes) → Except Error request.Reply
  | control _ => decodeStop
  | registers => decodeRegisters
  | readMemory _ length => fun payload => decodeMemory payload length
  | writeMemory .. => fun payload => .ok (isWriteAck payload)
  | reset => fun _ => .ok ()
  | peripherals => decodePeripherals

end Request

end RemoteDebugger.Target
