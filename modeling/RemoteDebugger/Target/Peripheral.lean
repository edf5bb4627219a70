import RemoteDebugger.Number.Numeral
import RemoteDebugger.Target.Reply

/-!
# Peripherals

The target lists its memory-mapped peripherals as records `name:start:end` with semicolons between
them.  Empty records are skipped; any other record needs exactly three fields.
-/

namespace RemoteDebugger.Target

/-- A memory-mapped peripheral with its first and last address. -/
structure Peripheral where
  name : String
  first : UInt16
  last : UInt16
  deriving DecidableEq, Repr

/-- The peripheral that a record describes. -/
def Peripheral.ofRecord? (record : List Char) : Option Peripheral :=
  match record.splitOn ':' with
  | [name, first, last] => do
    let first ← (Numeral.readWord 16 first).toOption
    let last ← (Numeral.readWord 16 last).toOption
    return { name := String.ofList name, first, last }
  | _ => none

/-- The records of a list of peripherals. -/
def peripheralRecords (text : List Char) : List (List Char) :=
  (text.splitOn ';').filter (!·.isEmpty)

/-- Decode a list of peripherals, up to the first malformed record. -/
def decodePeripherals (payload : Bytes) : Except Error (List Peripheral) := do
  let text ← payloadText payload
  (peripheralRecords text.toList).mapM fun record =>
    match Peripheral.ofRecord? record with
    | some peripheral => .ok peripheral
    | none => .error (.protocol (.malformedPeripheral (String.ofList record)))

/-- Peripherals as they are shown at the prompt. -/
def renderPeripherals (peripherals : List Peripheral) : String :=
  "Peripherals\n" ++ String.join (peripherals.map fun p =>
    p.name ++ ":\t" ++ String.ofList (Hex.fixed .upper 4 p.first.toNat) ++ ":" ++
      String.ofList (Hex.fixed .upper 4 p.last.toNat) ++ "\n")

end RemoteDebugger.Target
