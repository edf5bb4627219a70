import RemoteDebugger.Proofs.Wire.Reception

/-!
# Receiving from a stream that delivers

If reads deliver a byte string piece by piece and writes have room, a run is determined by the
frames that `drain` finds in the whole string: each receive takes the frames up to the next intact
one.  How the string was cut into pieces does not matter, since a link together with what its stream
still delivers is known by the frames it awaits (`Link.Awaits`), and a receive changes these in one
way only (`afterIntact`).
-/

namespace RemoteDebugger.Wire

namespace Stream

/-- Reads deliver `bytes`, cut into nonempty chunks of any size, and after them the end of the
stream. -/
def Delivers (stream : Stream) (bytes : Bytes) : Prop :=
  stream.stalls = false ∧ ∃ (chunks : List Bytes) (ends : Nat),
    (∀ chunk ∈ chunks, chunk ≠ []) ∧ chunks.flatten = bytes ∧
      stream.events = chunks.map .data ++ List.replicate ends (.data [])

/-- Writes of up to `count` more bytes succeed. -/
def Accepts (stream : Stream) (count : Nat) : Prop :=
  ∀ room, stream.room = some room → count ≤ room

/-- The bytes accepted since an earlier state are `bytes`. -/
def Extends (stream earlier : Stream) (bytes : Bytes) : Prop :=
  ∃ new, stream.writes = new ++ earlier.writes ∧ new.reverse.flatten = bytes

/-! ## Reads -/

/-- A read of a stream that delivers takes an initial part of what is to come, and none of it only
at the end. -/
theorem Delivers.exists_read {stream : Stream} {bytes : Bytes} (h : stream.Delivers bytes) :
    ∃ now later after, stream.read = (.ok now, after) ∧ bytes = now ++ later ∧
      after.Delivers later ∧ (now = [] → bytes = []) := by
  obtain ⟨hstalls, chunks, ends, hchunks, rfl, hevents⟩ := h
  cases chunks with
  | nil =>
      cases ends with
      | zero =>
          refine ⟨[], [], stream, ?_, rfl, ⟨hstalls, [], 0, by simp, rfl, hevents⟩, fun _ => rfl⟩
          simp [Stream.read, hevents, hstalls]
      | succ ends =>
          refine ⟨[], [], { stream with events := List.replicate ends (.data []) }, ?_, rfl,
            ⟨hstalls, [], ends, by simp, rfl, by simp⟩, fun _ => rfl⟩
          simp [Stream.read, hevents, List.replicate_succ]
  | cons chunk chunks =>
      have hchunk : chunk ≠ [] := hchunks chunk List.mem_cons_self
      have hlater : ∀ c ∈ chunks, c ≠ [] := fun c hc => hchunks c (List.mem_cons_of_mem _ hc)
      have hnow : chunk.take readLimit ≠ [] := by
        simp [readLimit, hchunk]
      by_cases hrest : chunk.drop readLimit = []
      · refine ⟨chunk.take readLimit, chunks.flatten,
          { stream with events := chunks.map .data ++ List.replicate ends (.data []) }, ?_, ?_,
          ⟨hstalls, chunks, ends, hlater, rfl, rfl⟩, fun h => absurd h hnow⟩
        · simp [Stream.read, hevents, hrest]
        · have hwhole := List.take_append_drop readLimit chunk
          rw [hrest, List.append_nil] at hwhole
          rw [hwhole, List.flatten_cons]
      · -- one read does not take all of a long chunk, and what is left of it comes next
        refine ⟨chunk.take readLimit, (chunk.drop readLimit :: chunks).flatten,
          { stream with
            events := (chunk.drop readLimit :: chunks).map .data ++
              List.replicate ends (.data []) }, ?_, ?_,
          ⟨hstalls, chunk.drop readLimit :: chunks, ends, ?_, rfl, rfl⟩, fun h => absurd h hnow⟩
        · simp [Stream.read, hevents, hrest]
        · rw [List.flatten_cons, List.flatten_cons, ← List.append_assoc, List.take_append_drop]
        · intro c hc
          rcases List.mem_cons.mp hc with rfl | hc
          · exact hrest
          · exact hlater c hc

theorem Delivers.read {stream after : Stream} {bytes : Bytes} {outcome : Outcome Fault Bytes}
    (h : stream.Delivers bytes) (hread : stream.read = (outcome, after)) :
    ∃ now later, outcome = .ok now ∧ bytes = now ++ later ∧ after.Delivers later ∧
      (now = [] → bytes = []) := by
  obtain ⟨now, later, state, hnow, hbytes, hlater, hend⟩ := h.exists_read
  rw [hread] at hnow
  cases hnow
  exact ⟨now, later, rfl, hbytes, hlater, hend⟩

theorem room_read (stream : Stream) : stream.read.2.room = stream.room := by
  unfold Stream.read
  split <;> rfl

theorem Accepts.read {stream after : Stream} {count : Nat} {outcome : Outcome Fault Bytes}
    (h : stream.Accepts count) (hread : stream.read = (outcome, after)) : after.Accepts count := by
  intro room hroom
  have hsame := room_read stream
  rw [hread, hroom] at hsame
  exact h room hsame.symm

theorem extends_read {stream after : Stream} {outcome : Outcome Fault Bytes}
    (hread : stream.read = (outcome, after)) : after.Extends stream [] := by
  have hwrites := writes_read stream
  rw [hread] at hwrites
  exact ⟨[], hwrites, rfl⟩

/-! ## Writes -/

/-- A write for which there is room succeeds and is accepted whole. -/
theorem Accepts.write {stream after : Stream} {bytes : Bytes} {count : Nat}
    {outcome : Outcome Fault Unit} (h : stream.Accepts (bytes.length + count))
    (hwrite : stream.write bytes = (outcome, after)) :
    outcome = .ok () ∧ after.Accepts count ∧ after.Extends stream bytes := by
  cases hroom : stream.room with
  | none =>
      simp only [Stream.write, hroom, Prod.mk.injEq] at hwrite
      obtain ⟨rfl, rfl⟩ := hwrite
      refine ⟨rfl, ?_, [bytes], rfl, by simp⟩
      intro room hafter
      simp at hafter
  | some room =>
      have hbound : bytes.length + count ≤ room := h room hroom
      have hfits : bytes.length ≤ room := by omega
      simp only [Stream.write, hroom, hfits, if_true, Prod.mk.injEq] at hwrite
      obtain ⟨rfl, rfl⟩ := hwrite
      refine ⟨rfl, ?_, [bytes], ?_, by simp⟩
      · intro left hleft
        obtain rfl : room - bytes.length = left := by simpa using hleft
        omega
      · simp [List.take_of_length_le hfits]

theorem Delivers.write {stream after : Stream} {bytes delivered : Bytes}
    {outcome : Outcome Fault Unit} (h : stream.Delivers delivered)
    (hwrite : stream.write bytes = (outcome, after)) : after.Delivers delivered := by
  have hstalls : after.stalls = stream.stalls := by
    have hsame : (stream.write bytes).2.stalls = stream.stalls := by
      unfold Stream.write
      split <;> rfl
    rwa [hwrite] at hsame
  rw [Delivers, hstalls, events_of_write hwrite]
  exact h

/-! ## What has been written -/

theorem Extends.trans {first second third : Stream} {before after : Bytes}
    (hafter : third.Extends second after) (hbefore : second.Extends first before) :
    third.Extends first (before ++ after) := by
  obtain ⟨new, hnew, rfl⟩ := hafter
  obtain ⟨old, hold, rfl⟩ := hbefore
  refine ⟨new ++ old, ?_, by simp⟩
  rw [hnew, hold, List.append_assoc]

theorem Extends.writtenSince_eq {stream earlier : Stream} {bytes : Bytes}
    (h : stream.Extends earlier bytes) : stream.writtenSince earlier = bytes := by
  obtain ⟨new, hnew, rfl⟩ := h
  exact (written_eq_append hnew).1

end Stream

/-! ## What is expected of a receive -/

def payloads (frames : List Frame) : List Bytes :=
  (frames.filter (·.intact)).map (·.payload)

/-- The number of frames with a wrong checksum before the intact frame of the given index and
behind the one before it; behind the last intact frame it counts those that remain. -/
def rejections (frames : List Frame) (index : Nat) : Nat :=
  ((frames.splitOnP (·.intact))[index]?.getD []).length

/-- The outcome of the receive of the given index: the payload of the intact frame of this index,
and the end of the stream if there are no more of them. -/
def expectedOutcome (frames : List Frame) (index : Nat) : Outcome Fault Bytes :=
  match (payloads frames)[index]? with
  | some payload => .ok payload
  | none => .error .closed

theorem isAbandoned_expectedOutcome (frames : List Frame) (index : Nat) :
    (expectedOutcome frames index).isAbandoned = false := by
  unfold expectedOutcome
  split <;> rfl

/-- What the receive of the given index writes: a rejection for each frame with a wrong checksum,
and an acceptance for the intact frame if there is one. -/
def expectedWritten (frames : List Frame) (index : Nat) : Bytes :=
  List.replicate (rejections frames index) rejected ++
    if index < (payloads frames).length then [accepted] else []

/-- The frames behind the first intact one. -/
def afterIntact : List Frame → List Frame
  | [] => []
  | frame :: later => if frame.intact then later else afterIntact later

/-! ### Frame by frame -/

@[simp] theorem payloads_nil : payloads [] = [] := rfl

theorem rejections_nil (index : Nat) : rejections [] index = 0 := by
  cases index <;> simp [rejections]

section Expectations

variable {frame : Frame} {later : List Frame}

@[simp] theorem payloads_cons_intact (h : frame.intact = true) :
    payloads (frame :: later) = frame.payload :: payloads later := by
  simp [payloads, h]

@[simp] theorem payloads_cons_rejected (h : frame.intact = false) :
    payloads (frame :: later) = payloads later := by
  simp [payloads, h]

theorem rejections_cons_intact_zero (h : frame.intact = true) :
    rejections (frame :: later) 0 = 0 := by
  simp [rejections, List.splitOnP_cons_eq_if_modifyHead, h]

theorem rejections_cons_intact_succ (h : frame.intact = true) (index : Nat) :
    rejections (frame :: later) (index + 1) = rejections later index := by
  simp [rejections, List.splitOnP_cons_eq_if_modifyHead, h]

theorem rejections_cons_rejected_zero (h : frame.intact = false) :
    rejections (frame :: later) 0 = rejections later 0 + 1 := by
  obtain ⟨first, groups, hsplit⟩ :=
    List.exists_cons_of_ne_nil (List.splitOnP_ne_nil (·.intact) later)
  simp [rejections, List.splitOnP_cons_eq_if_modifyHead, h, hsplit]

theorem rejections_cons_rejected_succ (h : frame.intact = false) (index : Nat) :
    rejections (frame :: later) (index + 1) = rejections later (index + 1) := by
  simp [rejections, List.splitOnP_cons_eq_if_modifyHead, h]

end Expectations

theorem expected_nil (index : Nat) :
    expectedOutcome [] index = .error .closed ∧ expectedWritten [] index = [] := by
  simp [expectedOutcome, expectedWritten, rejections_nil]

/-- The first receive settles on the first frame if it is intact, and otherwise rejects it and goes
on with the others. -/
theorem expected_cons (frame : Frame) (later : List Frame) :
    expectedOutcome (frame :: later) 0 =
        (if frame.intact then .ok frame.payload else expectedOutcome later 0) ∧
      expectedWritten (frame :: later) 0 =
        frame.acknowledgement :: if frame.intact then [] else expectedWritten later 0 := by
  cases h : frame.intact with
  | true =>
      simp [expectedOutcome, expectedWritten, Frame.acknowledgement, h, rejections_cons_intact_zero]
  | false =>
      simp [expectedOutcome, expectedWritten, Frame.acknowledgement, h, rejections_cons_rejected_zero,
        List.replicate_succ]

theorem payloads_afterIntact (frames : List Frame) :
    payloads (afterIntact frames) = (payloads frames).tail := by
  induction frames with
  | nil => rfl
  | cons frame later ih => cases h : frame.intact <;> simp [afterIntact, h, ih]

theorem rejections_afterIntact (frames : List Frame) (index : Nat) :
    rejections (afterIntact frames) index = rejections frames (index + 1) := by
  induction frames with
  | nil => simp [afterIntact, rejections_nil]
  | cons frame later ih =>
      cases h : frame.intact with
      | true => simp [afterIntact, h, rejections_cons_intact_succ]
      | false => simp [afterIntact, h, rejections_cons_rejected_succ, ih]

/-- After a receive the next one is expected to do what it would have done as the first one on the
frames behind the first intact one. -/
theorem expected_succ (frames : List Frame) (index : Nat) :
    expectedOutcome frames (index + 1) = expectedOutcome (afterIntact frames) index ∧
      expectedWritten frames (index + 1) = expectedWritten (afterIntact frames) index := by
  have hcount : index < (payloads (afterIntact frames)).length ↔
      index + 1 < (payloads frames).length := by
    rw [payloads_afterIntact, List.length_tail]
    omega
  constructor
  · simp [expectedOutcome, payloads_afterIntact]
  · simp only [expectedWritten, rejections_afterIntact, hcount]

/-! ## A receive does what is expected -/

namespace Link

/-- The frames that a link can still find in its buffer and in what its stream delivers. -/
def Awaits (link : Link) (frames : List Frame) : Prop :=
  ∃ bytes, link.stream.Delivers bytes ∧ (drain (link.buffer ++ bytes)).1 = frames

/-- The first frame of the buffer is the first one awaited, and its acknowledgement is written. -/
theorem Awaits.acknowledge {link : Link} {frames : List Frame} {frame : Frame} {rest : Bytes}
    {stream : Stream} {outcome : Outcome Fault Unit} {count : Nat} (h : link.Awaits frames)
    (haccepts : link.stream.Accepts ((expectedWritten frames 0).length + count))
    (hframe : extract? link.buffer = some (frame, rest))
    (hwrite : link.stream.write [frame.acknowledgement] = (outcome, stream)) :
    ∃ later, frames = frame :: later ∧ Awaits ⟨stream, rest⟩ later ∧ outcome = .ok () ∧
      stream.Accepts ((if frame.intact then [] else expectedWritten later 0).length + count) ∧
      stream.Extends link.stream [frame.acknowledgement] := by
  obtain ⟨bytes, hdelivers, rfl⟩ := h
  have hfirst := drain_append_of_some hframe bytes
  rw [hfirst, (expected_cons _ _).2, List.length_cons, Nat.add_comm _ 1, Nat.add_assoc] at haccepts
  obtain ⟨houtcome, hroom, hextends⟩ := haccepts.write hwrite
  exact ⟨_, hfirst, ⟨bytes, hdelivers.write hwrite, rfl⟩, houtcome, hroom, hextends⟩

/-- A write of the link's own leaves the awaited frames as they are. -/
theorem Awaits.write {link : Link} {frames : List Frame} {bytes : Bytes} {count : Nat}
    (h : link.Awaits frames) (haccepts : link.stream.Accepts (bytes.length + count)) :
    (link.write bytes).1 = .ok () ∧
      (link.write bytes).2.stream.Extends link.stream bytes ∧
      (link.write bytes).2.Awaits frames ∧ (link.write bytes).2.stream.Accepts count := by
  rcases hwrite : link.stream.write bytes with ⟨outcome, stream⟩
  obtain ⟨rfl, hroom, hextends⟩ := haccepts.write hwrite
  obtain ⟨delivered, hdelivers, hframes⟩ := h
  rw [Link.write, hwrite]
  exact ⟨rfl, hextends, ⟨delivered, hdelivers.write hwrite, hframes⟩, hroom⟩

/-- A receive on a link that awaits `frames` takes them up to the first intact one. -/
theorem Receives.expected {link last : Link} {history : List Event}
    {outcome : Outcome Fault Bytes} (h : Receives link history outcome last) :
    ∀ {frames : List Frame} {count : Nat}, link.Awaits frames →
      link.stream.Accepts ((expectedWritten frames 0).length + count) →
      outcome = expectedOutcome frames 0 ∧
        last.stream.Extends link.stream (expectedWritten frames 0) ∧
        last.Awaits (afterIntact frames) ∧ last.stream.Accepts count := by
  -- each removal takes the first awaited frame; a read moves bytes to the buffer and changes none
  induction h with
  | @returned link frame rest stream hframe hintact hwrite =>
      intro frames count hawaits haccepts
      obtain ⟨later, rfl, hlast, -, hroom, hextends⟩ := hawaits.acknowledge haccepts hframe hwrite
      obtain ⟨houtcome, hwritten⟩ := expected_cons frame later
      simp only [hintact, if_true, List.length_nil, Nat.zero_add] at houtcome hwritten hroom
      rw [houtcome, hwritten, afterIntact, if_pos hintact]
      exact ⟨rfl, hextends, hlast, hroom⟩
  | @rejected link last frame rest stream history outcome hframe hbad hwrite _ ih =>
      intro frames count hawaits haccepts
      obtain ⟨later, rfl, hlater, -, hroom, hextends⟩ := hawaits.acknowledge haccepts hframe hwrite
      obtain ⟨houtcome, hwritten⟩ := expected_cons frame later
      simp only [hbad, Bool.false_eq_true, if_false] at houtcome hwritten hroom
      obtain ⟨hsame, hmore, hlast⟩ := ih hlater hroom
      rw [houtcome, hwritten, afterIntact, hbad]
      exact ⟨hsame, hmore.trans hextends, hlast⟩
  | writeFailed hframe hwrite =>
      intro frames count hawaits haccepts
      obtain ⟨_, _, _, hok, _⟩ := hawaits.acknowledge haccepts hframe hwrite
      cases hok
  | writeStalled hframe hwrite =>
      intro frames count hawaits haccepts
      obtain ⟨_, _, _, hok, _⟩ := hawaits.acknowledge haccepts hframe hwrite
      cases hok
  | @filled link last arrived stream _ _ hnone hbytes hread _ ih =>
      intro frames count hawaits haccepts
      obtain ⟨bytes, hdelivers, hframes⟩ := hawaits
      obtain ⟨now, later, hnow, rfl, hlater, -⟩ := hdelivers.read hread
      cases hnow
      have hfilled : Awaits ⟨stream, link.buffer ++ arrived⟩ frames :=
        ⟨later, hlater, by rw [List.append_assoc, hframes]⟩
      obtain ⟨houtcome, hextends, hrest⟩ := ih hfilled (haccepts.read hread)
      exact ⟨houtcome, hextends.trans (Stream.extends_read hread), hrest⟩
  | @closed link stream hnone hread =>
      intro frames count hawaits haccepts
      obtain ⟨bytes, hdelivers, hframes⟩ := hawaits
      obtain ⟨now, later, hnow, hbytes, hlater, hend⟩ := hdelivers.read hread
      cases hnow
      -- nothing is to come and the buffer holds no frame, so none was awaited
      obtain rfl := hend rfl
      obtain rfl : later = [] := by simpa using hbytes.symm
      have hdrain : (drain (link.buffer ++ [])).1 = [] := by
        rw [List.append_nil, drain_of_none hnone]
      obtain rfl : frames = [] := hframes.symm.trans hdrain
      obtain ⟨houtcome, hwritten⟩ := expected_nil 0
      rw [hwritten, List.length_nil, Nat.zero_add] at haccepts
      rw [houtcome, hwritten]
      exact ⟨rfl, Stream.extends_read hread, ⟨[], hlater, hdrain⟩, haccepts.read hread⟩
  | readFailed hnone hread =>
      intro frames count hawaits haccepts
      obtain ⟨bytes, hdelivers, rfl⟩ := hawaits
      obtain ⟨now, later, hnow, -⟩ := hdelivers.read hread
      cases hnow
  | readStalled hnone hread =>
      intro frames count hawaits haccepts
      obtain ⟨bytes, hdelivers, rfl⟩ := hawaits
      obtain ⟨now, later, hnow, -⟩ := hdelivers.read hread
      cases hnow

/-! ## Runs -/

/-- The step that is expected of an action before which `index` receives have been made. -/
def expectedStep (frames : List Frame) (index : Nat) : Action → Step
  | .send payload => ⟨.send payload, .ok (), encode payload⟩
  | .receive => ⟨.receive, expectedOutcome frames index, expectedWritten frames index⟩

/-- The run that is expected of a list of actions on a stream that delivers `frames`. -/
def expectedRun (frames : List Frame) (actions : List Action) : List Step :=
  actions.mapIdx fun position action =>
    expectedStep frames ((actions.take position).count .receive) action

def leftover (frames : List Frame) : Action → List Frame
  | .send _ => frames
  | .receive => afterIntact frames

theorem expectedRun_cons (frames : List Frame) (action : Action) (later : List Action) :
    expectedRun frames (action :: later) =
      expectedStep frames 0 action :: expectedRun (leftover frames action) later := by
  cases action with
  | send payload => simp [expectedRun, List.mapIdx_cons, leftover]
  | receive =>
      -- the index of every later receive is shifted by this one
      have hstep : ∀ index action, expectedStep frames (index + 1) action =
          expectedStep (afterIntact frames) index action := by
        intro index action
        cases action with
        | send payload => rfl
        | receive => simp only [expectedStep, expected_succ]
      simp [expectedRun, List.mapIdx_cons, leftover, hstep]

theorem perform_expected {link : Link} {frames : List Frame} {count : Nat} {action : Action}
    (hawaits : link.Awaits frames)
    (haccepts : link.stream.Accepts ((expectedStep frames 0 action).written.length + count)) :
    ⟨action, (link.perform action).1, (link.perform action).2.stream.writtenSince link.stream⟩ =
        expectedStep frames 0 action ∧
      (link.perform action).2.Awaits (leftover frames action) ∧
      (link.perform action).2.stream.Accepts count := by
  cases action with
  | send payload =>
      have hframe : link.stream.Accepts ((encode payload).length + count) := haccepts
      obtain ⟨houtcome, hextends, hlast, hroom⟩ := hawaits.write hframe
      have hwritten := hextends.writtenSince_eq
      refine ⟨?_, hlast, hroom⟩
      simp only [perform, send, expectedStep, houtcome, hwritten]
  | receive =>
      obtain ⟨houtcome, hextends, hlast, hroom⟩ :=
        (receives_receiveHistory link).expected hawaits haccepts
      have hwritten := hextends.writtenSince_eq
      refine ⟨?_, hlast, hroom⟩
      simp only [perform, expectedStep, houtcome, hwritten]

theorem run_expected {link : Link} {frames : List Frame} (actions : List Action)
    (hawaits : link.Awaits frames)
    (haccepts : link.stream.Accepts ((expectedRun frames actions).flatMap Step.written).length) :
    (link.run actions).1 = expectedRun frames actions := by
  induction actions generalizing link frames with
  | nil => rfl
  | cons action later ih =>
      rw [expectedRun_cons, List.flatMap_cons, List.length_append] at haccepts
      obtain ⟨hstep, hlast, hroom⟩ := perform_expected hawaits haccepts
      rw [expectedRun_cons, ← hstep, ← ih hlast hroom]
      rfl

/-- A link that has just been opened awaits all frames of what its stream delivers. -/
theorem awaits_start {stream : Stream} {bytes : Bytes} {count : Nat}
    (hdelivers : stream.Delivers bytes) (haccepts : stream.Accepts (1 + count)) :
    (start stream).1 = .ok () ∧ (start stream).2.Awaits (drain bytes).1 ∧
      (start stream).2.stream.Accepts count := by
  have hawaits : Awaits { stream } (drain bytes).1 := ⟨bytes, hdelivers, rfl⟩
  have hfirst : stream.Accepts ([accepted].length + count) := haccepts
  obtain ⟨hopen, -, hlast, hroom⟩ := hawaits.write hfirst
  exact ⟨hopen, hlast, hroom⟩

/-- What a run returns and writes depends on the bytes that its stream delivers and not on how they
are cut. -/
theorem run_of_delivers {stream : Stream} {bytes : Bytes} {actions : List Action}
    (hdelivers : stream.Delivers bytes)
    (haccepts : stream.Accepts
      (1 + ((expectedRun (drain bytes).1 actions).flatMap Step.written).length)) :
    (start stream).1 = .ok () ∧
      ((start stream).2.run actions).1 = expectedRun (drain bytes).1 actions ∧
      ∀ other : Stream, other.Delivers bytes →
        other.Accepts
          (1 + ((expectedRun (drain bytes).1 actions).flatMap Step.written).length) →
        ((start other).2.run actions).1 = ((start stream).2.run actions).1 := by
  obtain ⟨hopen, hawaits, hroom⟩ := awaits_start hdelivers haccepts
  have hrun := run_expected actions hawaits hroom
  refine ⟨hopen, hrun, ?_⟩
  intro other hdelivers' haccepts'
  obtain ⟨-, hawaits', hroom'⟩ := awaits_start hdelivers' haccepts'
  rw [hrun, run_expected actions hawaits' hroom']

end Link

/-! ### A stream cut inside a payload and inside a checksum -/

/-- The text `+$x#00$OK#9A$` in four pieces. -/
def fragments : List Bytes :=
  [[0x2B, 0x24], [0x78, 0x23, 0x30], [0x30, 0x24, 0x4F, 0x4B, 0x23, 0x39], [0x41, 0x24]]

def fragmented : Stream where
  events := fragments.map .data
  room := some 64

theorem delivers_fragmented : fragmented.Delivers fragments.flatten := by
  refine ⟨rfl, fragments, 0, ?_, rfl, rfl⟩
  decide

theorem drain_fragments :
    (drain fragments.flatten).1 = [⟨[0x78], false, 6⟩, ⟨[0x4F, 0x4B], true, 6⟩] := by
  decide +kernel

theorem Link.run_fragmented :
    fragmented.Delivers fragments.flatten ∧
      ((start fragmented).2.run [.receive, .send [0x3F], .receive]).1 =
        [⟨.receive, .ok [0x4F, 0x4B], [rejected, accepted]⟩,
          ⟨.send [0x3F], .ok (), encode [0x3F]⟩,
          ⟨.receive, .error .closed, []⟩] := by
  have haccepts : fragmented.Accepts (1 + ((expectedRun (drain fragments.flatten).1
      [.receive, .send [0x3F], .receive]).flatMap Step.written).length) := by
    intro room hroom
    rw [drain_fragments]
    cases hroom
    decide +kernel
  obtain ⟨-, hrun, -⟩ := run_of_delivers delivers_fragmented haccepts
  rw [hrun, drain_fragments]
  exact ⟨delivers_fragmented, rfl⟩

end RemoteDebugger.Wire
