import RemoteDebugger.Target.Reply

/-!
# Stop replies

The answer to a question for the halt state and to the requests that halt, step or resume the
target.  `E` and a text is an error of the target, `S` and two digits a signal, and `T` and two
digits a signal with the program counter: four digits behind two characters for the number of its
register.  Whatever follows is ignored.
-/

namespace RemoteDebugger.Target

/-- What the target reports when it is asked whether it runs. -/
structure StopStatus where
  signal : UInt8
  address : Option UInt16
  deriving DecidableEq, Repr

/-- An address as it is shown at the prompt. -/
def renderAddress (address : UInt16) : String :=
  "0x" ++ String.ofList (Hex.fixed .upper 4 address.toNat)

namespace StopStatus

/-- Whether the target executes: signal zero is no signal, so nothing stopped it. -/
def isRunning (status : StopStatus) : Bool :=
  status.signal == 0

/-- The name of the state. -/
def stateName (status : StopStatus) : String :=
  if status.isRunning then "Running" else "Stopped"

/-- The status as it is shown at the prompt. -/
def render (status : StopStatus) : String :=
  let place := match status.address with
    | some address => " at " ++ renderAddress address
    | none => ""
  status.stateName ++ " (signal 0x" ++ String.ofList (Hex.fixed .upper 2 status.signal.toNat) ++
    ")" ++ place

end StopStatus

/-- The value of digits that are all hexadecimal. -/
def readDigits? (digits : List Char) : Option Nat :=
  digits.foldlM (fun value c => (Hex.digitValue? c).map (value * 16 + ·)) 0

/-- The status that a text spells. -/
def StopStatus.ofText? : List Char → Option StopStatus
  | 'S' :: s₁ :: s₂ :: _ => do
    let signal ← readDigits? [s₁, s₂]
    return { signal := UInt8.ofNat signal, address := none }
  | 'T' :: s₁ :: s₂ :: _ :: _ :: p₁ :: p₂ :: p₃ :: p₄ :: _ => do
    let signal ← readDigits? [s₁, s₂]
    let address ← readDigits? [p₁, p₂, p₃, p₄]
    return { signal := UInt8.ofNat signal, address := some (UInt16.ofNat address) }
  | _ => none

/-- Decode a stop reply.  Its first byte decides how the rest is taken. -/
def decodeStop (payload : Bytes) : Except Error StopStatus :=
  if isErrorReply payload then .error (remoteError payload)
  else if payload.head? = some 'S'.toUInt8 ∨ payload.head? = some 'T'.toUInt8 then do
    let text ← payloadText payload
    match StopStatus.ofText? text.toList with
    | some status => .ok status
    | none => .error (.protocol (.malformedStop payload))
  else .error (.protocol (.unexpectedStop payload))

end RemoteDebugger.Target
