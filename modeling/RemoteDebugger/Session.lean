import RemoteDebugger.Target.Request
import RemoteDebugger.Wire.Link

/-!
# Sessions

A session performs one request at a time: it sends the request, waits for one reply and decodes
it.  Replies do not say which request they answer, so a request that was abandoned before its
reply arrived blocks all later ones.
-/

namespace RemoteDebugger

open RemoteDebugger.Target RemoteDebugger.Wire

/-- A link to a target and the name of the request that still waits for its reply, if one does. -/
structure Session where
  link : Link
  pending : Option String := none
  deriving DecidableEq, Repr

namespace Session

/-- Open a session over a stream. -/
def connect (stream : Stream) : Outcome Error Unit × Session :=
  let (outcome, link) := Link.start stream
  (outcome.mapError .connection, { link })

/-- Whether an earlier request still waits for its reply. -/
def isPending (session : Session) : Bool :=
  session.pending.isSome

/-- Send a request and wait for the payload of its reply, which is empty if none is expected. -/
def exchange (link : Link) (request : Request) : Outcome Fault Bytes × Link :=
  match link.send request.payload with
  | (.ok (), link) => if request.expectsReply then link.receive else (.ok [], link)
  | (.error fault, link) => (.error fault, link)
  | (.abandoned, link) => (.abandoned, link)

/-- Perform a request.  It is refused before anything is sent if it does not fit one packet or if
an earlier one is still pending. -/
def perform (session : Session) (request : Request) :
    Outcome Error request.Reply × Session :=
  match request.oversize? with
  | some size => (.error (.requestTooLarge size), session)
  | none =>
    match session.pending with
    | some name => (.error (.requestPending name), session)
    | none =>
      let (outcome, link) := exchange session.link request
      ((outcome.mapError .connection).andThen request.decode,
        { link, pending := if outcome.isAbandoned then some request.name else none })

/-! ## Runs -/

/-- One step of a run: a request, its outcome, the bytes written during it, and whether a request
is pending after it. -/
structure Step where
  request : Request
  outcome : Outcome Error request.Reply
  written : Bytes
  pending : Bool

/-- Perform one request after the other, whatever the outcome of those before. -/
def run (session : Session) : List Request → List Step × Session
  | [] => ([], session)
  | request :: later =>
    let (outcome, after) := session.perform request
    let (steps, last) := run after later
    ({ request
       outcome
       written := after.link.stream.writtenSince session.link.stream
       pending := after.isPending } :: steps, last)

theorem run_cons (session : Session) (request : Request) (later : List Request) :
    session.run (request :: later) =
      (⟨request, (session.perform request).1,
          (session.perform request).2.link.stream.writtenSince session.link.stream,
          (session.perform request).2.isPending⟩ ::
        ((session.perform request).2.run later).1, ((session.perform request).2.run later).2) := rfl

theorem run_append (session : Session) (before after : List Request) :
    session.run (before ++ after) =
      ((session.run before).1 ++ ((session.run before).2.run after).1,
        ((session.run before).2.run after).2) := by
  induction before generalizing session with
  | nil => rfl
  | cons request later ih =>
    rw [List.cons_append, run_cons, ih, run_cons]
    rfl

end Session

end RemoteDebugger
