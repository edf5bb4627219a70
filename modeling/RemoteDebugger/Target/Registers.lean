import RemoteDebugger.Target.Memory

/-!
# Registers

The register file of the target, which is sent like memory: seven bytes in a fixed order.
-/

namespace RemoteDebugger.Target

/-- The number of bytes in the register file. -/
def registerCount : Nat := 7

/-- The register file in the order of the wire: accumulator, index registers, stack pointer, high
and low byte of the program counter, and status register. -/
structure Registers where
  bytes : Vector UInt8 registerCount
  deriving DecidableEq, Repr

namespace Registers

/-- The names of the registers in the order of the wire. -/
def names : List String :=
  ["AC", "XR", "YR", "SP", "PCH", "PCL", "SR"]

/-- The accumulator. -/
def ac (registers : Registers) : UInt8 := registers.bytes[0]

/-- The first index register. -/
def xr (registers : Registers) : UInt8 := registers.bytes[1]

/-- The second index register. -/
def yr (registers : Registers) : UInt8 := registers.bytes[2]

/-- The stack pointer. -/
def sp (registers : Registers) : UInt8 := registers.bytes[3]

/-- The program counter, whose high byte comes first. -/
def pc (registers : Registers) : UInt16 :=
  UInt16.ofNat (registers.bytes[4].toNat * 256 + registers.bytes[5].toNat)

/-- The status register. -/
def sr (registers : Registers) : UInt8 := registers.bytes[6]

/-- The registers as they are shown at the prompt. -/
def render (registers : Registers) : String :=
  let line (name : String) (value : UInt8) : String :=
    name ++ ": 0x" ++ String.ofList (Hex.fixed .upper 2 value.toNat) ++ s!" ({value.toNat})\n"
  "Registers\n" ++ line "AC" registers.ac ++ line "XR" registers.xr ++ line "YR" registers.yr ++
    line "SP" registers.sp ++
    "PC: 0x" ++ String.ofList (Hex.fixed .lower 4 registers.pc.toNat) ++ "\n" ++
    line "SR" registers.sr

end Registers

/-- Decode a reply to the request for the registers. -/
def decodeRegisters (payload : Bytes) : Except Error Registers :=
  (fun bytes => ⟨⟨bytes.val.toArray, by simpa using bytes.property⟩⟩) <$>
    decodeBytes payload registerCount

end RemoteDebugger.Target
