import RemoteDebugger.Bytes
import RemoteDebugger.Outcome

/-!
# Streams

A byte stream is known by what its reads will deliver and by how much its writes will accept.  A
read delivers a limited number of bytes at a time, the end of the stream, or a failure, or it is
not ready; what has been written is kept.  `unread` measures what reads can still deliver.
-/

namespace RemoteDebugger.Wire

/-- Why a connection fails. -/
inductive Fault where
  /-- The stream ended while more was expected. -/
  | closed
  /-- The other side takes no more bytes. -/
  | brokenPipe
  /-- A write made no progress. -/
  | writeZero
  /-- The stream reported a failure of its own. -/
  | failed (reason : String)
  deriving DecidableEq, Repr

/-- The wording of a fault. -/
def Fault.message : Fault → String
  | .closed => "Connection closed"
  | .brokenPipe => "pipe broken"
  | .writeZero => "write zero"
  | .failed reason => reason

/-- What a read meets next.  Data without any byte is the end of the stream, met once. -/
inductive ReadEvent where
  | data (bytes : Bytes)
  | failure (reason : String)
  | notReady
  deriving DecidableEq, Repr

/-- What a write meets once no more bytes are accepted. -/
inductive WriteEnd where
  | fails
  | acceptsNothing
  | notReady
  deriving DecidableEq, Repr

/-- A byte stream.  After the listed events reads meet the end of the stream or, if `stalls`, are
not ready.  `room` is the number of bytes that writes still accept, if limited, and `writes` what
they have accepted, the latest first. -/
structure Stream where
  events : List ReadEvent
  stalls : Bool := false
  room : Option Nat := none
  writeEnd : WriteEnd := .fails
  writes : List Bytes := []
  deriving DecidableEq, Repr

/-- The number of bytes that one read delivers at most. -/
def readLimit : Nat := 1024

namespace Stream

/-- Read the next bytes; no bytes mean the end of the stream. -/
def read (stream : Stream) : Outcome Fault Bytes × Stream :=
  match stream.events with
  | [] => (if stream.stalls then .abandoned else .ok [], stream)
  | .notReady :: later => (.abandoned, { stream with events := later })
  | .failure reason :: later => (.error (.failed reason), { stream with events := later })
  | .data bytes :: later =>
    (.ok (bytes.take readLimit),
      { stream with
        events := if (bytes.drop readLimit).isEmpty then later
          else .data (bytes.drop readLimit) :: later })

/-- Write all bytes, or as many as are accepted. -/
def write (stream : Stream) (bytes : Bytes) : Outcome Fault Unit × Stream :=
  match stream.room with
  | none => (.ok (), { stream with writes := bytes :: stream.writes })
  | some room =>
    (if bytes.length ≤ room then .ok ()
      else match stream.writeEnd with
        | .fails => .error .brokenPipe
        | .acceptsNothing => .error .writeZero
        | .notReady => .abandoned,
      { stream with
        room := some (room - bytes.length)
        writes := bytes.take room :: stream.writes })

/-- All bytes written so far. -/
def written (stream : Stream) : Bytes :=
  stream.writes.reverse.flatten

/-- The bytes written since an earlier state of the stream. -/
def writtenSince (stream earlier : Stream) : Bytes :=
  (stream.writes.take (stream.writes.length - earlier.writes.length)).reverse.flatten

/-! ## What is left to read -/

/-- The share of an event in the work left for reads. -/
def eventSize : ReadEvent → Nat
  | .data bytes => bytes.length + 1
  | _ => 1

/-- The work left for reads, which every delivery of bytes makes smaller. -/
def unread (stream : Stream) : Nat :=
  stream.events.foldr (fun event size => eventSize event + size) 0

@[simp] theorem events_write (stream : Stream) (bytes : Bytes) :
    (stream.write bytes).2.events = stream.events := by
  unfold write
  split <;> rfl

theorem events_of_write {stream after : Stream} {bytes : Bytes} {outcome : Outcome Fault Unit}
    (h : stream.write bytes = (outcome, after)) : after.events = stream.events := by
  simpa [h] using events_write stream bytes

/-- Bytes written before stay, and what is written since comes behind them. -/
theorem written_eq_append {stream earlier : Stream} {new : List Bytes}
    (h : stream.writes = new ++ earlier.writes) :
    stream.writtenSince earlier = new.reverse.flatten ∧
      stream.written = earlier.written ++ stream.writtenSince earlier := by
  have hsince : stream.writtenSince earlier = new.reverse.flatten := by
    simp [writtenSince, h]
  refine ⟨hsince, ?_⟩
  rw [hsince]
  simp [written, h]

/-- What a stream accepts of a write is an initial part of it. -/
theorem writes_write (stream : Stream) (bytes : Bytes) :
    ∃ accepted, accepted <+: bytes ∧
      (stream.write bytes).2.writes = accepted :: stream.writes := by
  unfold write
  split
  · exact ⟨bytes, List.prefix_rfl, rfl⟩
  · exact ⟨_, List.take_prefix _ _, rfl⟩

@[simp] theorem writes_read (stream : Stream) : stream.read.2.writes = stream.writes := by
  unfold read
  split <;> rfl

theorem unread_read_lt {stream after : Stream} {b : UInt8} {bytes : Bytes}
    (h : stream.read = (.ok (b :: bytes), after)) : after.unread < stream.unread := by
  unfold read at h
  split at h
  · split at h <;> simp at h
  · simp at h
  · simp at h
  · next delivered later hevents =>
    simp only [Prod.mk.injEq, Outcome.ok.injEq] at h
    obtain ⟨_, rfl⟩ := h
    simp only [unread, hevents]
    split
    · simp [eventSize]
    · next hmore =>
      have hlen : readLimit < delivered.length := by simpa [List.isEmpty_iff] using hmore
      simp only [List.foldr_cons, eventSize, List.length_drop, readLimit] at hlen ⊢
      omega

end Stream

end RemoteDebugger.Wire
