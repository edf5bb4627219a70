import RemoteDebugger.Number.Numeral
import RemoteDebugger.Text.Whitespace

/-!
# Commands

What can be typed at the prompt.  A line is read by its words alone; the first word and the word
behind `info` may be abbreviated.
-/

namespace RemoteDebugger.Prompt

/-- A command of the prompt. -/
inductive Command where
  | help
  | breakpoint
  | halt
  | step
  | resume
  | set (address : UInt16) (value : UInt8)
  | reset
  | registers
  | peripherals
  | symbol (name : String)
  | examine (address length : UInt16)
  | list (target : Option String)
  | quit
  deriving DecidableEq, Repr

/-- The summary of all commands. -/
def helpText : String :=
  String.intercalate "\n" [
    "q|quit :            Quit",
    "b|break :           Add breakpoint (not supported)",
    "c|cont|continue :   Resume execution",
    "s|step :            Step one instruction",
    "h|halt :            Halt processor",
    "r|reset :           Reset the target system",
    "i|info :            Get info",
    "    r|reg|registers :   Register values",
    "    p|peri|peripherals : Memory-mapped peripherals",
    "    sym|symbol NAME :   Address of a symbol in the listing",
    "x|examine ADDR [N] : Examine N bytes of memory at address ADDR (hex)",
    "x/N ADDR :          Examine N bytes of memory at address ADDR (hex)",
    "set ADDR VALUE :    Set the byte at ADDR (accepts 0x, 0o prefixes)",
    "l|list [SYMBOL|ADDR] : Show source around a symbol, address or the program counter"]

/-! ## Rejected lines -/

/-- Why a line is no command. -/
inductive CommandError where
  | unknownCommand
  | noInfoCommand
  | unknownInfoCommand
  | invalidValue (word : String) (fault : Numeral.Fault)
  | outOfRange (value : Nat)
  | invalidAddress (word : String) (fault : Numeral.Fault)
  | invalidLength (word : String) (fault : Numeral.Fault)
  deriving DecidableEq, Repr

/-- The wording of a rejection. -/
def CommandError.message : CommandError → String
  | .unknownCommand => "Unknown command"
  | .noInfoCommand => "No info command"
  | .unknownInfoCommand => "Unknown info command"
  | .invalidValue word fault => s!"Invalid value: {word}: {fault.message}"
  | .outOfRange value => s!"Invalid value: {value} is out of range"
  | .invalidAddress word fault => s!"Invalid address: {word}: {fault.message}"
  | .invalidLength word fault => s!"Invalid length: {word}: {fault.message}"

/-! ## Numbers -/

/-- The radix that a number is written in, by the letter behind a leading zero, and its digits. -/
def radixAndDigits : List Char → Nat × List Char
  | '0' :: 'x' :: digits | '0' :: 'X' :: digits => (16, digits)
  | '0' :: 'o' :: digits | '0' :: 'O' :: digits => (8, digits)
  | digits => (10, digits)

/-- A number below 2³², in decimal or with the sign of another radix. -/
def readNumber (word : String) : Except CommandError Nat :=
  let (radix, digits) := radixAndDigits word.toList
  (Numeral.read radix 4294967296 digits).mapError (.invalidValue word)

/-- A number that has to stay below a limit. -/
def narrow (limit value : Nat) : Except CommandError Nat :=
  if value < limit then .ok value else .error (.outOfRange value)

/-- An address in hexadecimal, which may start with `0x`. -/
def readAddress (word : String) : Except CommandError UInt16 :=
  let digits := match word.toList with
    | '0' :: 'x' :: digits => digits
    | digits => digits
  (Numeral.readWord 16 digits).mapError (.invalidAddress word)

/-- A number of bytes in decimal. -/
def readLength (word : String) : Except CommandError UInt16 :=
  (Numeral.readWord 10 word.toList).mapError (.invalidLength word)

/-! ## Lines -/

/-- The full form of a command word. -/
def expand : String → String
  | "q" => "quit"
  | "b" => "break"
  | "c" | "cont" => "continue"
  | "s" => "step"
  | "i" => "info"
  | "x" => "examine"
  | "h" => "halt"
  | "r" => "reset"
  | "l" => "list"
  | word => word

/-- The full form of the word behind `info`. -/
def expandInfo : String → String
  | "r" | "reg" => "registers"
  | "p" | "peri" => "peripherals"
  | "sym" => "symbol"
  | word => word

/-- The command to examine memory. -/
def readExamine (address length : String) : Except CommandError Command := do
  let address ← readAddress address
  let length ← readLength length
  return .examine address length

/-- The command that a full command word and its arguments spell. -/
def readCommand : (word : String) → (arguments : List String) → Except CommandError Command
  | "help", [] => .ok .help
  | "break", _ => .ok .breakpoint
  | "halt", [] => .ok .halt
  | "step", [] => .ok .step
  | "continue", [] => .ok .resume
  | "reset", [] => .ok .reset
  | "quit", [] => .ok .quit
  | "set", [address, value] => do
    let address ← readNumber address >>= narrow 65536
    let value ← readNumber value >>= narrow 256
    return .set (UInt16.ofNat address) (UInt8.ofNat value)
  | "info", [] => .error .noInfoCommand
  | "info", what :: arguments =>
    match expandInfo what, arguments with
    | "registers", [] => .ok .registers
    | "peripherals", [] => .ok .peripherals
    | "symbol", [name] => .ok (.symbol name)
    | _, _ => .error .unknownInfoCommand
  | "examine", [address] => do
    let address ← readAddress address
    return .examine address 1
  | "examine", [address, length] => readExamine address length
  | "list", [] => .ok (.list none)
  | "list", [target] => .ok (.list (some target))
  | word, [address] =>
    match word.toList with
    | 'x' :: '/' :: length => readExamine address (String.ofList length)
    | _ => .error .unknownCommand
  | _, _ => .error .unknownCommand

/-- The command that the words of a line spell.  A line without words is no command. -/
def Command.ofWords : List String → Except CommandError (Option Command)
  | [] => .ok none
  | word :: arguments => some <$> readCommand (expand word) arguments

/-- Read a line. -/
def Command.parse (line : String) : Except CommandError (Option Command) :=
  Command.ofWords ((Text.words line.toList).map String.ofList)

end RemoteDebugger.Prompt
