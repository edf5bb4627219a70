import RemoteDebugger.Listing.Basic
import RemoteDebugger.Text.Quoted
import RemoteDebugger.Text.Utf8
import RemoteDebugger.Wire.Stream

/-!
# Errors

The ways in which a request to the target or the reading of a listing fails, their wording, and
which of them leave the session unusable.
-/

namespace RemoteDebugger

open RemoteDebugger.Text

/-- What is wrong with the payload of an intact frame. -/
inductive ReplyDefect where
  | unexpectedStop (payload : Bytes)
  | malformedStop (payload : Bytes)
  | notText (payload : Bytes)
  | malformedPeripheral (record : String)
  | invalidHex (fault : Hex.Fault) (payload : Bytes)
  | wrongLength (expected actual : Nat)
  deriving DecidableEq, Repr

/-- Why a request or the reading of a listing fails. -/
inductive Error where
  /-- The stream failed or ended. -/
  | connection (fault : Wire.Fault)
  /-- A frame arrived whose payload is no answer to the request. -/
  | protocol (defect : ReplyDefect)
  /-- The target answered with an error of its own. -/
  | remote (text : String)
  /-- A listing is malformed. -/
  | format (error : Listing.FormatError)
  /-- An earlier request, of the given name, has not observed its reply. -/
  | requestPending (name : String)
  /-- The data of a memory write does not fit one request. -/
  | requestTooLarge (size : Nat)
  deriving DecidableEq, Repr

/-! ## Wording -/

/-- The wording of a fault in a text of hexadecimal digits. -/
def Hex.Fault.message : Hex.Fault → String
  | .oddLength => "Odd number of digits"
  | .invalidCharacter character index =>
    let quoted := String.ofList (quote '\'' [character])
    s!"Invalid character {quoted} at position {index}"

/-- A payload in quotation marks. -/
def quotedPayload (payload : Bytes) : String :=
  String.ofList (quote '"' (decodeLossy payload))

/-- The wording of a defect: what is wrong, and the text in which it was found. -/
def ReplyDefect.message : ReplyDefect → String
  | .unexpectedStop payload => "unexpected stop reply: " ++ quotedPayload payload
  | .malformedStop payload => "malformed stop reply: " ++ quotedPayload payload
  | .notText payload => "reply is not text: " ++ quotedPayload payload
  | .malformedPeripheral record =>
    "malformed peripheral record: " ++ String.ofList (quote '"' record.toList)
  | .invalidHex fault payload =>
    "invalid hex data (" ++ fault.message ++ "): " ++ quotedPayload payload
  | .wrongLength expected actual => s!"expected {expected} bytes, got {actual}"

/-- The wording of an error. -/
def Error.message : Error → String
  | .connection fault => "connection error: " ++ fault.message
  | .protocol defect => "protocol error: " ++ defect.message
  | .remote text => "target error: " ++ text
  | .format error => error.message
  | .requestPending name => s!"request `{name}` is still awaiting its reply"
  | .requestTooLarge size => s!"memory write of {size} bytes does not fit a single packet"

/-- Whether the session can no longer be used. -/
def Error.isFatal : Error → Bool
  | .connection _ | .requestPending _ => true
  | _ => false

end RemoteDebugger
