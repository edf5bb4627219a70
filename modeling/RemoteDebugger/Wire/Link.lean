import RemoteDebugger.Wire.Frame
import RemoteDebugger.Wire.Stream

/-!
# Links

A link exchanges frames over a stream.  Bytes that arrive are buffered until a frame is complete.
Every frame taken from the buffer is acknowledged, by `+` if its checksum matches and by `-`
otherwise; a frame whose checksum does not match is dropped, and the target is expected to send it
again.
-/

namespace RemoteDebugger.Wire

/-- The acknowledgement of an intact frame, `+`. -/
def accepted : UInt8 := 0x2B

/-- The request to send a frame again, `-`. -/
def rejected : UInt8 := 0x2D

/-- The answer to a frame. -/
def Frame.acknowledgement (frame : Frame) : UInt8 :=
  if frame.intact then accepted else rejected

/-- A stream and the bytes received from it that belong to no frame taken so far. -/
structure Link where
  stream : Stream
  buffer : Bytes := []
  deriving DecidableEq, Repr

namespace Link

/-- Write to the stream. -/
def write (link : Link) (bytes : Bytes) : Outcome Fault Unit × Link :=
  ((link.stream.write bytes).1, { link with stream := (link.stream.write bytes).2 })

/-- Start to use a stream, by one acknowledgement. -/
def start (stream : Stream) : Outcome Fault Unit × Link :=
  ({ stream } : Link).write [accepted]

/-- Send a payload in a frame.  The acknowledgement of the other side is not awaited: it comes
before the next frame, where it is skipped. -/
def send (link : Link) (payload : Bytes) : Outcome Fault Unit × Link :=
  link.write (encode payload)

/-- Take frames from the buffer up to the first intact one, whose payload is returned once its
acknowledgement is written. -/
def takeBuffered (link : Link) : Outcome Fault (Option Bytes) × Link :=
  match _h : extract? link.buffer with
  | none => (.ok none, link)
  | some (frame, rest) =>
    match link.stream.write [frame.acknowledgement] with
    | (.ok (), stream) =>
      if frame.intact then (.ok (some frame.payload), ⟨stream, rest⟩)
      else takeBuffered ⟨stream, rest⟩
    | (.error fault, stream) => (.error fault, ⟨stream, rest⟩)
    | (.abandoned, stream) => (.abandoned, ⟨stream, rest⟩)
termination_by link.buffer.length
decreasing_by exact extract?_rest_lt _h

/-- Acknowledgements use up nothing of what is to be read. -/
@[simp] theorem events_takeBuffered (link : Link) :
    link.takeBuffered.2.stream.events = link.stream.events := by
  fun_induction takeBuffered link with
  | case1 => rfl
  | case2 link frame rest _ stream hwrite => exact Stream.events_of_write hwrite
  | case3 link frame rest _ stream hwrite _ ih => exact ih.trans (Stream.events_of_write hwrite)
  | case4 link frame rest _ fault stream hwrite => exact Stream.events_of_write hwrite
  | case5 link frame rest _ stream hwrite => exact Stream.events_of_write hwrite

/-- Read once.  Bytes are added to the buffer, and the end of the stream is a fault. -/
def fill (link : Link) : Outcome Fault Unit × Link :=
  match link.stream.read with
  | (.ok [], stream) => (.error .closed, { link with stream })
  | (.ok bytes, stream) => (.ok (), ⟨stream, link.buffer ++ bytes⟩)
  | (.error fault, stream) => (.error fault, { link with stream })
  | (.abandoned, stream) => (.abandoned, { link with stream })

theorem unread_fill_lt {link after : Link} (h : link.fill = (.ok (), after)) :
    after.stream.unread < link.stream.unread := by
  unfold fill at h
  split at h
  · simp at h
  · next bytes stream hnil hread =>
    cases h
    cases bytes with
    | nil => exact absurd rfl hnil
    | cons b bytes => exact Stream.unread_read_lt hread
  · simp at h
  · simp at h

/-- Wait for the next intact frame and return its payload. -/
def receive (link : Link) : Outcome Fault Bytes × Link :=
  match _h : link.takeBuffered with
  | (.ok (some payload), after) => (.ok payload, after)
  | (.ok none, after) =>
    match _hfill : after.fill with
    | (.ok (), filled) => receive filled
    | (.error fault, filled) => (.error fault, filled)
    | (.abandoned, filled) => (.abandoned, filled)
  | (.error fault, after) => (.error fault, after)
  | (.abandoned, after) => (.abandoned, after)
termination_by link.stream.unread
decreasing_by
  have hevents : after.stream.events = link.stream.events := by
    simpa [_h] using events_takeBuffered link
  have hlt := unread_fill_lt _hfill
  simpa [Stream.unread, hevents] using hlt

/-! ## Runs -/

/-- A use of a link. -/
inductive Action where
  | send (payload : Bytes)
  | receive
  deriving DecidableEq, Repr

/-- What a use of a link results in. -/
@[reducible] def Action.Result : Action → Type
  | send _ => Unit
  | receive => Bytes

/-- Use a link once. -/
def perform (link : Link) : (action : Action) → Outcome Fault action.Result × Link
  | .send payload => link.send payload
  | .receive => link.receive

/-- One step of a run: an action, its outcome, and the bytes written during it. -/
structure Step where
  action : Action
  outcome : Outcome Fault action.Result
  written : Bytes

/-- Use a link for one action after the other, whatever the outcome of those before. -/
def run (link : Link) : List Action → List Step × Link
  | [] => ([], link)
  | action :: later =>
    let (outcome, after) := link.perform action
    let (steps, last) := run after later
    ({ action, outcome, written := after.stream.writtenSince link.stream } :: steps, last)

theorem run_cons (link : Link) (action : Action) (later : List Action) :
    link.run (action :: later) =
      (⟨action, (link.perform action).1,
          (link.perform action).2.stream.writtenSince link.stream⟩ ::
        ((link.perform action).2.run later).1, ((link.perform action).2.run later).2) := rfl

end Link

end RemoteDebugger.Wire
