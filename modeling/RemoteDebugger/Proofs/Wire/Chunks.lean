import RemoteDebugger.Proofs.Wire.Encoding

/-!
# Frames from bytes that come in chunks

Taking all complete frames after each chunk finds, chunk by chunk, the frames that the whole byte
string holds, and leaves the same bytes in the buffer.  A frame that is found is not changed by what
comes behind it, and the bytes kept are all that matters for later frames (`drain_append`); the rest
is one induction on the chunks.
-/

namespace RemoteDebugger.Wire

/-- The frames found in all chunks. -/
def framesFound (drained : List (List Frame × Bytes)) : List Frame :=
  drained.flatMap Prod.fst

/-- The bytes left behind the last chunk, or those of the buffer if there is no chunk. -/
def leftInBuffer (buffer : Bytes) (drained : List (List Frame × Bytes)) : Bytes :=
  (drained.map Prod.snd).getLastD buffer

theorem framesFound_cons (first : List Frame × Bytes) (later : List (List Frame × Bytes)) :
    framesFound (first :: later) = first.1 ++ framesFound later :=
  List.flatMap_cons

theorem leftInBuffer_cons (buffer : Bytes) (first : List Frame × Bytes)
    (later : List (List Frame × Bytes)) :
    leftInBuffer buffer (first :: later) = leftInBuffer first.2 later :=
  List.getLastD_cons ..

/-- A buffer from which all frames have been taken goes on like the bytes that it came from. -/
theorem drainChunks_eq {buffer : Bytes} (hbuffer : extract? buffer = none) (chunks : List Bytes) :
    framesFound (drainChunks buffer chunks) = (drain (buffer ++ chunks.flatten)).1 ∧
      leftInBuffer buffer (drainChunks buffer chunks) = (drain (buffer ++ chunks.flatten)).2 := by
  induction chunks generalizing buffer with
  | nil =>
      rw [List.flatten_nil, List.append_nil, drain_of_none hbuffer]
      exact ⟨rfl, rfl⟩
  | cons chunk later ih =>
      obtain ⟨hframes, hleft⟩ := ih (extract?_drain (buffer ++ chunk))
      rw [drainChunks, framesFound_cons, leftInBuffer_cons, hframes, hleft, List.flatten_cons,
        ← List.append_assoc, drain_append (buffer ++ chunk)]
      exact ⟨rfl, rfl⟩

/-! ## Frames behind noise -/

/-- Payloads in their frames, each behind the bytes that come before it. -/
def behindNoise (messages : List (Bytes × Bytes)) : Bytes :=
  messages.flatMap fun (noise, payload) => noise ++ encode payload

/-- The intact frame of a payload behind noise. -/
def intactFrame (message : Bytes × Bytes) : Frame :=
  ⟨message.2, true, message.1.length + message.2.length + 4⟩

theorem drain_behindNoise {messages : List (Bytes × Bytes)}
    (h : ∀ message ∈ messages, startMark ∉ message.1 ∧ endMark ∉ message.2) :
    drain (behindNoise messages) = (messages.map intactFrame, []) := by
  induction messages with
  | nil => exact drain_of_none rfl
  | cons message later ih =>
      obtain ⟨hnoise, hpayload⟩ := h message List.mem_cons_self
      have hlater := ih fun other hother => h other (List.mem_cons_of_mem _ hother)
      have hframe := extract?_encode hnoise hpayload (behindNoise later)
      have hsplit : behindNoise (message :: later) =
          message.1 ++ encode message.2 ++ behindNoise later := List.flatMap_cons
      rw [hsplit, drain_of_some hframe, hlater]
      rfl

/-- However bytes are cut into chunks, the frames found and the bytes left are those of the whole
byte string.  Frames of payloads without an end mark, behind noise that opens none, are found one by
one, intact and in order, and nothing is left. -/
theorem drainChunks_eq_drain (chunks : List Bytes) :
    framesFound (drainChunks [] chunks) = (drain chunks.flatten).1 ∧
      leftInBuffer [] (drainChunks [] chunks) = (drain chunks.flatten).2 ∧
      ∀ messages : List (Bytes × Bytes),
        (∀ message ∈ messages, startMark ∉ message.1 ∧ endMark ∉ message.2) →
        chunks.flatten = behindNoise messages →
        framesFound (drainChunks [] chunks) = messages.map intactFrame ∧
          leftInBuffer [] (drainChunks [] chunks) = [] := by
  obtain ⟨hframes, hleft⟩ := drainChunks_eq (rfl : extract? [] = none) chunks
  rw [List.nil_append] at hframes hleft
  refine ⟨hframes, hleft, ?_⟩
  intro messages hmessages hwhole
  rw [hframes, hleft, hwhole, drain_behindNoise hmessages]
  exact ⟨rfl, rfl⟩

/-- The text `+$S05#B8-#$#00` cut inside the first checksum and inside the second frame, with a
chunk of no bytes. -/
def cutInChecksum : List Bytes :=
  [[0x2B, 0x24, 0x53, 0x30, 0x35, 0x23, 0x42], [], [0x38, 0x2D, 0x23, 0x24, 0x23], [0x30, 0x30]]

theorem drainChunks_cutInChecksum :
    framesFound (drainChunks [] cutInChecksum) =
        [⟨[0x53, 0x30, 0x35], true, 8⟩, ⟨[], true, 6⟩] ∧
      leftInBuffer [] (drainChunks [] cutInChecksum) = [] := by
  obtain ⟨-, -, hmessages⟩ := drainChunks_eq_drain cutInChecksum
  have hwhole : cutInChecksum.flatten =
      behindNoise [([0x2B], [0x53, 0x30, 0x35]), ([0x2D, 0x23], [])] := by
    decide +kernel
  exact hmessages [([0x2B], [0x53, 0x30, 0x35]), ([0x2D, 0x23], [])] (by decide) hwhole

end RemoteDebugger.Wire
