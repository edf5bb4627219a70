import RemoteDebugger.Proofs.Wire.Extraction
import RemoteDebugger.Wire.Link

/-!
# Histories of a link

The result of a receive does not show what was done on the way to it.  A history lists that: the
reads, the writes that were attempted, and the removals of frames from the buffer, in the order in
which they happen.  `Link.Moves` says what each of them does to a link.  Two facts hold of every
history whatever code has produced it: no byte is lost, and the frames are removed in the order in
which `drain` finds them in all bytes at once.
-/

namespace RemoteDebugger.Wire

/-- One operation of a link on its stream or on its buffer. -/
inductive Event where
  | read (outcome : Outcome Fault Bytes)
  | write (bytes : Bytes) (outcome : Outcome Fault Unit)
  | remove (piece : Bytes) (frame : Frame)
  deriving DecidableEq, Repr

namespace Event

def delivered : Event → Bytes
  | read (.ok bytes) => bytes
  | _ => []

def drained : Event → Bytes
  | remove piece _ => piece
  | _ => []

def removed? : Event → Option Frame
  | remove _ frame => some frame
  | _ => none

def attempted? : Event → Option Bytes
  | write bytes _ => some bytes
  | _ => none

def answered? : Event → Option (Outcome Fault Unit)
  | write _ outcome => some outcome
  | _ => none

end Event

/-! ## Views of a history -/

def delivered (history : List Event) : Bytes :=
  history.flatMap Event.delivered

/-- The pieces drained from the buffer, put together. -/
def drained (history : List Event) : Bytes :=
  history.flatMap Event.drained

def removed (history : List Event) : List Frame :=
  history.filterMap Event.removed?

/-- What each write attempted to write. -/
def attempted (history : List Event) : List Bytes :=
  history.filterMap Event.attempted?

def answered (history : List Event) : List (Outcome Fault Unit) :=
  history.filterMap Event.answered?

/-- The payloads of the intact frames whose own write succeeded, where the frames removed and the
writes attempted belong to each other in their order. -/
def confirmed (history : List Event) : List Bytes :=
  ((removed history).zip (answered history)).filterMap fun (frame, outcome) =>
    if frame.intact ∧ outcome = .ok () then some frame.payload else none

@[simp] theorem delivered_nil : delivered [] = [] := rfl

@[simp] theorem delivered_cons (event : Event) (later : List Event) :
    delivered (event :: later) = event.delivered ++ delivered later := rfl

@[simp] theorem drained_nil : drained [] = [] := rfl

@[simp] theorem drained_cons (event : Event) (later : List Event) :
    drained (event :: later) = event.drained ++ drained later := rfl

@[simp] theorem removed_nil : removed [] = [] := rfl

@[simp] theorem removed_cons (event : Event) (later : List Event) :
    removed (event :: later) = event.removed?.toList ++ removed later := by
  cases h : event.removed? <;> simp [removed, h]

@[simp] theorem attempted_nil : attempted [] = [] := rfl

@[simp] theorem attempted_cons (event : Event) (later : List Event) :
    attempted (event :: later) = event.attempted?.toList ++ attempted later := by
  cases h : event.attempted? <;> simp [attempted, h]

@[simp] theorem answered_nil : answered [] = [] := rfl

@[simp] theorem answered_cons (event : Event) (later : List Event) :
    answered (event :: later) = event.answered?.toList ++ answered later := by
  cases h : event.answered? <;> simp [answered, h]

theorem answered_append (before after : List Event) :
    answered (before ++ after) = answered before ++ answered after :=
  List.filterMap_append

/-! ## What a history does to a link -/

namespace Link

/-- A history leads from one link to another: each read and each write has the outcome that the
stream gives it there, and each frame removed is the first one of the buffer there. -/
inductive Moves : Link → List Event → Link → Prop
  | done (link : Link) : Moves link [] link
  | read {link last : Link} {outcome : Outcome Fault Bytes} {stream : Stream}
      {later : List Event} (hread : link.stream.read = (outcome, stream))
      (hlater : Moves ⟨stream, link.buffer ++ (Event.read outcome).delivered⟩ later last) :
      Moves link (.read outcome :: later) last
  | write {link last : Link} {bytes : Bytes} {outcome : Outcome Fault Unit} {stream : Stream}
      {later : List Event} (hwrite : link.stream.write bytes = (outcome, stream))
      (hlater : Moves ⟨stream, link.buffer⟩ later last) :
      Moves link (.write bytes outcome :: later) last
  | remove {link last : Link} {frame : Frame} {rest : Bytes} {later : List Event}
      (hframe : extract? link.buffer = some (frame, rest))
      (hlater : Moves ⟨link.stream, rest⟩ later last) :
      Moves link (.remove (link.buffer.take frame.consumed) frame :: later) last

theorem Moves.append {first second third : Link} {before after : List Event}
    (hbefore : Moves first before second) (hafter : Moves second after third) :
    Moves first (before ++ after) third := by
  induction hbefore with
  | done => exact hafter
  | read hread _ ih => exact .read hread (ih hafter)
  | write hwrite _ ih => exact .write hwrite (ih hafter)
  | remove hframe _ ih => exact .remove hframe (ih hafter)

/-- No byte is lost or made up: what was buffered and what reads delivered is what was drained with
frames and what is buffered now. -/
theorem Moves.buffer_append_delivered {link last : Link} {history : List Event}
    (h : Moves link history last) :
    link.buffer ++ delivered history = drained history ++ last.buffer := by
  induction h with
  | done => simp
  | read _ _ ih => simpa [Event.drained] using ih
  | write _ _ ih => simpa [Event.delivered, Event.drained] using ih
  | remove hframe _ ih =>
      have hbuffer := take_consumed_append hframe
      rw [drained_cons, List.append_assoc, ← ih, Event.drained, ← List.append_assoc, hbuffer]
      rfl

/-- The frames removed are the first ones that `drain` finds in the bytes that were there, arrived,
or are still to arrive. -/
theorem Moves.drain_append {link last : Link} {history : List Event}
    (h : Moves link history last) (more : Bytes) :
    (drain (link.buffer ++ (delivered history ++ more))).1 =
      removed history ++ (drain (last.buffer ++ more)).1 := by
  induction h with
  | done => simp
  | read _ _ ih => simpa [Event.removed?] using ih
  | write _ _ ih => simpa [Event.delivered, Event.removed?] using ih
  | remove hframe _ ih =>
      rw [drain_append_of_some hframe]
      simpa [Event.delivered, Event.removed?] using ih

end Link

end RemoteDebugger.Wire
