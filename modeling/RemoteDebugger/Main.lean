import RemoteDebugger.Prompt.Program
import Std.Async.DNS
import Std.Async.TCP

/-!
# The command line program

The outer layer of the program: files, the connection to the target, and the lines of a terminal.
A turn of the debugger is a function of the bytes that have arrived.  If it is abandoned because it
waits for the target, it is taken again, from the state before it, as soon as there are more bytes;
what it wrote by then has already been sent.
-/

namespace RemoteDebugger.Prompt

open RemoteDebugger.Wire
open Std.Async

/-- A connection to a target. -/
abbrev Connection := TCP.Socket.Client

/-- Connect to the first host that answers. -/
def Connection.toFirst (port : UInt16) : List Std.Net.IPAddr → IO Connection
  | [] => throw (IO.userError "the address has no host")
  | host :: others => do
    let target : Std.Net.SocketAddress := match host with
      | .v4 addr => .v4 { addr, port }
      | .v6 addr => .v6 { addr, port }
    try
      let connection ← TCP.Socket.Client.mk
      (connection.connect target).block
      return connection
    catch e => if others.isEmpty then throw e else Connection.toFirst port others

/-- Connect to an address that may be a name. -/
def Connection.to (address : String) (port : UInt16) : IO Connection := do
  let hosts ← (DNS.getAddrInfo address (toString port.toNat)).block
  Connection.toFirst port hosts.toList

/-- What the next read from a connection meets. -/
def Connection.receive (connection : Connection) : IO ReadEvent := do
  try
    match ← (connection.recv? readLimit.toUInt64).block with
    | some bytes => return .data bytes.toList
    | none => return .data []
  catch e => return .failure (toString e)

/-- The debugger when its stream meets one more event. -/
def Debugger.meet (debugger : Debugger) (event : ReadEvent) : Debugger :=
  let stream := { debugger.stream with events := debugger.stream.events ++ [event] }
  let link := { debugger.session.link with stream }
  { debugger with session := { debugger.session with link } }

/-- Take a turn until it is complete.  `sent` is the number of bytes that earlier attempts at this
turn have sent. -/
partial def complete (connection : Connection) (turn : Debugger → Debugger.Turn × Debugger)
    (debugger : Debugger) (sent : Nat) : IO (Debugger.Turn × Debugger) := do
  let (result, after) := turn debugger
  let written := after.stream.writtenSince debugger.stream
  try
    let unsent := written.drop sent
    unless unsent.isEmpty do (connection.send unsent.toByteArray).block
  catch e => return (.failed (.connection (.failed (toString e))), after)
  if result = .abandoned then
    let event ← connection.receive
    complete connection turn (debugger.meet event) written.length
  else
    return (result, after)

/-- Show a text at once. -/
def display (text : String) : IO Unit := do
  let stdout ← IO.getStdout
  stdout.putStr text
  stdout.flush

/-- Answer lines from a terminal until one of them ends the run. -/
partial def converseLive (connection : Connection) (debugger : Debugger) :
    IO (Option Failure) := do
  display promptSign
  let line ← (← IO.getStdin).getLine
  if line.isEmpty then return none
  let (result, after) ← complete connection (·.answer line) debugger 0
  match result with
  | .proceed output =>
    display output
    converseLive connection after
  | .quit output =>
    display output
    return none
  | .failed e => return some (.command e)
  | .abandoned => return none

/-- Open a session over a connection and answer lines of input. -/
def debugLive (listing : Option Listing.Document) (connection : Connection) :
    IO (Option Failure) := do
  let (_, session) := Session.connect { events := [], stalls := true }
  let greeting := session.link.stream.written
  try
    (connection.send greeting.toByteArray).block
  catch e => return some (.handshake (.connection (.failed (toString e))))
  let (result, debugger) ← complete connection (·.queryState) { session, listing } 0
  match result with
  | .proceed output | .quit output =>
    display output
    converseLive connection debugger
  | .failed e => return some (.query e)
  | .abandoned => return none

/-- The contents of a file, if it exists. -/
def contents? (path : String) : IO (Option Bytes) := do
  try
    return some (← IO.FS.readBinFile path).toList
  catch
    | .noFileOrDirectory .. => return none
    | e => throw e

/-- Run the program with the given options. -/
def runLive (options : Options) : IO (Option Failure) := do
  let contents ← match options.listing with
    | some path => contents? path
    | none => pure none
  match loadOptional (fun _ => contents) options with
  | .error failure => return some failure
  | .ok listing =>
    match ← (Connection.to options.address options.port).toBaseIO with
    | .error e => return some (.unreachable options.address options.port (toString e))
    | .ok connection => debugLive listing connection

/-- A summary of the command line. -/
def usage : String :=
  String.intercalate "\n" [
    "Options:",
    "  -a, --address ADDRESS  Debug server host (::1)",
    "  -p, --port PORT        Debug server port (6502)",
    "  -l, --listing LISTING  Assembler listing used to show source",
    "  -v, --verbose          Increase log verbosity",
    "  -h, --help             Print help",
    "  -V, --version          Print version"]

/-- The wording of a command line that is refused. -/
def UsageError.message : UsageError → String
  | .valueValidation => "a value is out of range"
  | .invalidValue => "an option lacks its value"
  | .unknownArgument => "an argument is unknown"
  | .argumentConflict => "an option is given twice"
  | .tooManyValues => "an option takes no value"
  | .displayHelp => usage
  | .displayVersion => "0.1.0"

/-- A failure with its causes below it. -/
def Failure.message (failure : Failure) : String :=
  match failure.chain with
  | [] => "Error"
  | outermost :: causes =>
    let lines := causes.zipIdx.map fun cause => s!"\n    {cause.2}: {cause.1}"
    "Error: " ++ outermost ++
      if causes.isEmpty then "" else "\n\nCaused by:" ++ String.join lines

end RemoteDebugger.Prompt

open RemoteDebugger.Prompt in
def main (arguments : List String) : IO UInt32 := do
  match Options.parse arguments with
  | .error .displayHelp => IO.println UsageError.displayHelp.message; return 0
  | .error .displayVersion => IO.println UsageError.displayVersion.message; return 0
  | .error e => IO.eprintln s!"error: {e.message}"; return 2
  | .ok options =>
    match ← runLive options with
    | none => return 0
    | some failure =>
      IO.eprintln failure.message
      return 1
