import RemoteDebugger.Error

/-!
# Replies

What the decoders of replies share: the error that a target reports, and replies that are text.
-/

namespace RemoteDebugger.Target

open RemoteDebugger.Text

/-- Whether a reply begins with `E`, as the report of an error does. -/
def isErrorReply (payload : Bytes) : Bool :=
  payload.head? == some 'E'.toUInt8

/-- The error that a target reports behind the letter `E`. -/
def remoteError (payload : Bytes) : Error :=
  .remote (String.ofList (decodeLossy payload.tail))

/-- The text of a payload. -/
def payloadText (payload : Bytes) : Except Error String :=
  match decodeUtf8? payload with
  | some text => .ok text
  | none => .error (.protocol (.notText payload))

end RemoteDebugger.Target
