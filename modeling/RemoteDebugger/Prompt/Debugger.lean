import RemoteDebugger.Listing.Window
import RemoteDebugger.Prompt.Command
import RemoteDebugger.Session

/-!
# The debugger behind the prompt

A debugger has a session, the listing of the program if one was loaded, and the program counter of
the latest stop reply that carried one.  `execute` carries out one command and `answer` one line
of input.
-/

namespace RemoteDebugger.Prompt

open RemoteDebugger.Target

/-- The state of the debugger between two lines of input. -/
structure Debugger where
  session : Session
  listing : Option Listing.Document := none
  lastPc : Option UInt16 := none

namespace Debugger

/-! ## Texts -/

/-- The source around an address, if a listing is loaded. -/
def sourceText (debugger : Debugger) (address : UInt16) : String :=
  match debugger.listing with
  | none => ""
  | some listing =>
    match listing.windowAt? address Listing.defaultRadius with
    | none => "No source for " ++ renderAddress address ++ "\n"
    | some window => window.render

/-- The text shown for a status. -/
def statusText (debugger : Debugger) (status : StopStatus) : String :=
  status.render ++ "\n" ++ (status.address.map debugger.sourceText).getD ""

/-- The text shown for a symbol. -/
def symbolText (debugger : Debugger) (name : String) : String :=
  match debugger.listing with
  | none => "No listing loaded\n"
  | some listing =>
    match listing.symbol? name with
    | some symbol => name ++ ": " ++ renderAddress symbol.address ++ "\n"
    | none => "No symbol " ++ name ++ "\n"

/-! ## Commands -/

/-- The address that a target of `list` denotes: that of a symbol of this name, or a number. -/
def targetAddress? (listing : Listing.Document) (target : String) : Option UInt16 :=
  match listing.symbol? target with
  | some symbol => some symbol.address
  | none =>
    match readNumber target >>= narrow 65536 with
    | .ok address => some (UInt16.ofNat address)
    | .error _ => none

/-- Perform a request and describe its reply. -/
def ask (debugger : Debugger) (request : Request) (describe : request.Reply → String) :
    Outcome Error String × Debugger :=
  let (outcome, session) := debugger.session.perform request
  (outcome.map describe, { debugger with session })

/-- Take note of the program counter of a status. -/
def track (debugger : Debugger) (status : StopStatus) : Debugger :=
  { debugger with lastPc := status.address.or debugger.lastPc }

/-- Control execution and take note of the program counter in the answer. -/
def control (debugger : Debugger) (action : Control) : Outcome Error String × Debugger :=
  match debugger.session.perform (.control action) with
  | (.ok status, session) =>
    (.ok (debugger.statusText status), { debugger with session }.track status)
  | (.error e, session) => (.error e, { debugger with session })
  | (.abandoned, session) => (.abandoned, { debugger with session })

/-- Reset the target, after which no program counter is known. -/
def reset (debugger : Debugger) : Outcome Error String × Debugger :=
  match debugger.session.perform .reset with
  | (.ok (), session) => (.ok "", { debugger with session, lastPc := none })
  | (.error e, session) => (.error e, { debugger with session })
  | (.abandoned, session) => (.abandoned, { debugger with session })

/-- Show source around a target, or around the program counter, which is asked for if it is not
known. -/
def list (debugger : Debugger) (target : Option String) : Outcome Error String × Debugger :=
  match debugger.listing, target, debugger.lastPc with
  | none, _, _ => (.ok "No listing loaded\n", debugger)
  | some listing, some target, _ =>
    match targetAddress? listing target with
    | some address => (.ok (debugger.sourceText address), debugger)
    | none => (.ok ("Unknown symbol or address: " ++ target ++ "\n"), debugger)
  | some _, none, some pc => (.ok (debugger.sourceText pc), debugger)
  | some _, none, none => debugger.ask .registers fun registers => debugger.sourceText registers.pc

/-- Carry out a command.  The text is what it shows if it succeeds. -/
def execute (debugger : Debugger) : Command → Outcome Error String × Debugger
  | .help => (.ok (helpText ++ "\n"), debugger)
  | .breakpoint => (.ok "Breakpoints are not supported\n", debugger)
  | .halt => debugger.control .halt
  | .step => debugger.control .step
  | .resume => debugger.control .resume
  | .set address value =>
    debugger.ask (.writeMemory address [value]) fun acknowledged =>
      if acknowledged then "OK\n" else "Failed to set memory\n"
  | .reset => debugger.reset
  | .registers => debugger.ask .registers Registers.render
  | .peripherals => debugger.ask .peripherals renderPeripherals
  | .symbol name => (.ok (debugger.symbolText name), debugger)
  | .examine address length =>
    debugger.ask (.readMemory address length) fun bytes => renderMemory bytes ++ "\n"
  | .list target => debugger.list target
  | .quit => (.ok "Quit\n", debugger)

/-! ## Lines -/

/-- How the debugger goes on after a line of input. -/
inductive Turn where
  /-- Show a text and read the next line. -/
  | proceed (output : String)
  /-- Show a text and end. -/
  | quit (output : String)
  /-- End with an error that leaves the session unusable. -/
  | failed (error : Error)
  /-- The line waits for a read or a write that is not ready. -/
  | abandoned
  deriving DecidableEq, Repr

/-- What follows from the outcome of a command, the last one if `quits`. -/
def Turn.ofOutcome (quits : Bool) : Outcome Error String → Turn
  | .ok output => if quits then .quit output else .proceed output
  | .error e => if e.isFatal then .failed e else .proceed ("Error: " ++ e.message ++ "\n")
  | .abandoned => .abandoned

/-- Ask for the state of the target, as is done once at the start. -/
def queryState (debugger : Debugger) : Turn × Debugger :=
  let (outcome, debugger) := debugger.control .query
  (.ofOutcome false outcome, debugger)

/-- Answer a line of input. -/
def answer (debugger : Debugger) (line : String) : Turn × Debugger :=
  match Command.parse (String.ofList (Text.trim line.toList)) with
  | .error e => (.proceed (e.message ++ "\n"), debugger)
  | .ok none => (.proceed "", debugger)
  | .ok (some command) =>
    let (outcome, debugger) := debugger.execute command
    (.ofOutcome (command == .quit) outcome, debugger)

end Debugger

end RemoteDebugger.Prompt
