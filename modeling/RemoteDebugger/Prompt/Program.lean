import RemoteDebugger.Listing.Parser
import RemoteDebugger.Prompt.Debugger
import RemoteDebugger.Prompt.Options

/-!
# The program

A run of the program: it reads its command line, loads the listing, connects to the target, asks
for its state, and then answers lines of input until one of them ends it.  What it shows and what
it writes to the target is reported step by step: up to the first line of input, and for each line.
-/

namespace RemoteDebugger.Prompt

open RemoteDebugger.Wire

/-- What the program finds around it: the contents of files, the target that answers at an address
and a port or the reason why none does, and the lines of input. -/
structure Environment where
  file? : String → Option Bytes
  connect : String → UInt16 → Except String Stream
  lines : List String

/-! ## Failures -/

/-- Why a run fails. -/
inductive Failure where
  | unreadableListing (path : String)
  | malformedListing (path : String) (error : Listing.FormatError)
  | unreachable (address : String) (port : UInt16) (reason : String)
  | handshake (error : Error)
  | query (error : Error)
  | command (error : Error)
  deriving DecidableEq, Repr

/-- An address and a port in one text. -/
def endpoint (address : String) (port : UInt16) : String :=
  s!"{address}:{port.toNat}"

/-- The wording of an error and, behind it, that of the fault that caused it. -/
def errorChain (e : Error) : List String :=
  match e with
  | .connection fault => [e.message, fault.message]
  | _ => [e.message]

/-- The wording of a failure, from the outermost context to the innermost cause. -/
def Failure.chain : Failure → List String
  | .unreadableListing path => ["reading " ++ path, "stream did not contain valid UTF-8"]
  | .malformedListing path error => ["parsing listing " ++ path, error.message]
  | .unreachable address port reason => ["connecting to " ++ endpoint address port, reason]
  | .handshake error => errorChain error
  | .query error => "querying target state" :: errorChain error
  | .command error => "debug session ended" :: errorChain error

/-! ## Reports -/

/-- The sign that the program waits for a line of input. -/
def promptSign : String := ">"

/-- What a step of a run shows, and what it writes to the target. -/
structure Step where
  output : String := ""
  written : Bytes := []
  deriving DecidableEq, Repr

/-- How a run ends. -/
inductive Ending where
  | finished
  | failed (failure : Failure)
  | abandoned
  deriving DecidableEq, Repr

/-- The course of a run. -/
structure Report where
  logFilter : String
  connectedTo : Option String
  steps : List Step
  ending : Ending
  deriving DecidableEq, Repr

/-! ## Runs -/

/-- The listing at a path.  A file that does not exist only costs the source context. -/
def loadListing (file? : String → Option Bytes) (path : String) :
    Except Failure (Option Listing.Document) :=
  match file? path with
  | none => .ok none
  | some bytes =>
    match Text.decodeUtf8? bytes with
    | none => .error (.unreadableListing path)
    | some text =>
      match Listing.Document.parse text with
      | .ok listing => .ok (some listing)
      | .error e => .error (.malformedListing path e)

/-- The listing that the options name, if they name one. -/
def loadOptional (file? : String → Option Bytes) (options : Options) :
    Except Failure (Option Listing.Document) :=
  match options.listing with
  | none => .ok none
  | some path => loadListing file? path

/-- The stream of a debugger. -/
def Debugger.stream (debugger : Debugger) : Stream :=
  debugger.session.link.stream

/-- A turn of the debugger with its state before and after. -/
structure Round where
  before : Debugger
  turn : Debugger.Turn
  after : Debugger

/-- Whether another line is read after a turn. -/
def Debugger.Turn.goesOn : Debugger.Turn → Bool
  | .proceed _ => true
  | _ => false

/-- What a turn shows, with the sign for the next line if one is read. -/
def Debugger.Turn.shown : Debugger.Turn → String
  | .proceed output => output ++ promptSign
  | .quit output => output
  | .failed _ | .abandoned => ""

/-- How a run ends whose last turn this is, where `failure` tells what an error means. -/
def Debugger.Turn.ending (failure : Error → Failure) : Debugger.Turn → Ending
  | .proceed _ | .quit _ => .finished
  | .failed e => .failed (failure e)
  | .abandoned => .abandoned

/-- The step that a round makes. -/
def Round.step (round : Round) : Step :=
  { output := round.turn.shown
    written := round.after.stream.writtenSince round.before.stream }

/-- The rounds for lines of input, up to the first one that ends the run. -/
def rounds (debugger : Debugger) : List String → List Round
  | [] => []
  | line :: later =>
    let (turn, after) := debugger.answer line
    { before := debugger, turn, after } :: if turn.goesOn then rounds after later else []

/-- How a run ends after the given rounds. -/
def endingAfter (rounds : List Round) : Ending :=
  match rounds.getLast? with
  | some round => round.turn.ending .command
  | none => .finished

/-- Use a stream: open a session, ask for the state of the target, and answer lines of input. -/
def debug (listing : Option Listing.Document) (stream : Stream) (lines : List String) :
    List Step × Ending :=
  match Session.connect stream with
  | (.ok (), session) =>
    let (turn, debugger) := ({ session, listing } : Debugger).queryState
    let first : Step := { output := turn.shown, written := debugger.stream.writtenSince stream }
    if turn.goesOn then
      let rounds := rounds debugger lines
      (first :: rounds.map Round.step, endingAfter rounds)
    else ([first], turn.ending .query)
  | (.error e, session) =>
    ([{ written := session.link.stream.writtenSince stream }], .failed (.handshake e))
  | (.abandoned, session) =>
    ([{ written := session.link.stream.writtenSince stream }], .abandoned)

/-- Run the program with the given options. -/
def runWith (environment : Environment) (options : Options) : Report :=
  let logFilter := options.logFilter
  match loadOptional environment.file? options with
  | .error failure =>
    { logFilter, connectedTo := none, steps := [{}], ending := .failed failure }
  | .ok listing =>
    let connectedTo := some (endpoint options.address options.port)
    match environment.connect options.address options.port with
    | .error reason =>
      let failure := .unreachable options.address options.port reason
      { logFilter, connectedTo, steps := [{}], ending := .failed failure }
    | .ok stream =>
      let (steps, ending) := debug listing stream environment.lines
      { logFilter, connectedTo, steps, ending }

/-- Run the program. -/
def run (environment : Environment) (arguments : List String) : Except UsageError Report :=
  runWith environment <$> Options.parse arguments

end RemoteDebugger.Prompt
