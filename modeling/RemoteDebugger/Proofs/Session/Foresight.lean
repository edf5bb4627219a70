import RemoteDebugger.Proofs.Session.Transcript

/-!
# What is still to come

What a session will be answered is fixed by the frames in its buffer and in what its stream will
deliver, and by the fault at which the stream will stop.  How the bytes are cut into reads, and
where the buffer ends, makes no difference: `Session.perform_of_expects` computes the outcome of a
request, what is written for it and what is left behind it from the frames and the fault alone.
-/

namespace RemoteDebugger

namespace Wire

/-! ## What a stream delivers -/

/-- The bytes that reads deliver up to the first one that delivers none, and the fault that this one
meets; it meets none if it is not ready. -/
def deliveryOf (stalls : Bool) : List ReadEvent → Bytes × Option Fault
  | [] => ([], if stalls then none else some .closed)
  | .notReady :: _ => ([], none)
  | .failure reason :: _ => ([], some (.failed reason))
  | .data [] :: _ => ([], some .closed)
  | .data (b :: bytes) :: later =>
      (b :: bytes ++ (deliveryOf stalls later).1, (deliveryOf stalls later).2)

def Stream.delivery (stream : Stream) : Bytes × Option Fault :=
  deliveryOf stream.stalls stream.events

theorem deliveryOf_data {stalls : Bool} {bytes : Bytes} {later : List ReadEvent}
    (h : bytes ≠ []) :
    deliveryOf stalls (.data bytes :: later) =
      (bytes ++ (deliveryOf stalls later).1, (deliveryOf stalls later).2) := by
  cases bytes with
  | nil => exact absurd rfl h
  | cons b bytes => rfl

/-- A read takes its bytes from the front of what is delivered. -/
theorem Stream.delivery_eq (stream : Stream) :
    stream.delivery =
      match stream.read with
      | (.ok [], _) => ([], some .closed)
      | (.ok (b :: bytes), after) => (b :: bytes ++ after.delivery.1, after.delivery.2)
      | (.error fault, _) => ([], some fault)
      | (.abandoned, _) => ([], none) := by
  obtain ⟨events, stalls, room, writeEnd, writes⟩ := stream
  match events with
  | [] => cases stalls <;> rfl
  | .notReady :: _ => rfl
  | .failure reason :: _ => rfl
  | .data [] :: _ => rfl
  | .data (b :: bytes) :: later =>
      have hread : (b :: bytes).take readLimit = b :: bytes.take (readLimit - 1) := rfl
      have hwhole := List.take_append_drop readLimit (b :: bytes)
      simp only [Stream.delivery, Stream.read, hread]
      rw [hread] at hwhole
      split
      · next hrest =>
          rw [List.isEmpty_iff.mp hrest, List.append_nil] at hwhole
          rw [hwhole]
          rfl
      · next hrest =>
          have hmore : (b :: bytes).drop readLimit ≠ [] := mt List.isEmpty_iff.mpr hrest
          rw [deliveryOf_data hmore, deliveryOf_data (List.cons_ne_nil b bytes),
            ← List.append_assoc, hwhole]

theorem Stream.delivery_of_write {stream after : Stream} {bytes : Bytes}
    {outcome : Outcome Fault Unit} (h : stream.write bytes = (outcome, after)) :
    after.delivery = stream.delivery := by
  unfold Stream.write at h
  split at h <;> cases h <;> rfl

/-- The frames in what a stream delivers. -/
def Stream.frames (stream : Stream) : List (Bytes × Bool) :=
  contents (drain stream.delivery.1).1

/-- The fault at which a stream stops, if it is ready then. -/
def Stream.stop (stream : Stream) : Option Fault :=
  stream.delivery.2

/-! ## What a receive makes of it -/

/-- What comes of waiting for a reply: the outcome, the acknowledgements written, and the frames
that are left. -/
structure Reception where
  outcome : Outcome Fault Bytes
  written : Bytes
  left : List (Bytes × Bool)

/-- Frames that are not intact are rejected up to the first intact one, which is accepted.  If there
is none, the stream is read until it stops. -/
def received (stop : Option Fault) : List (Bytes × Bool) → Reception
  | [] => ⟨match stop with | some fault => .error fault | none => .abandoned, [], []⟩
  | (payload, true) :: later => ⟨.ok payload, [accepted], later⟩
  | (_, false) :: later =>
      let reception := received stop later
      ⟨reception.outcome, rejected :: reception.written, reception.left⟩

/-- What comes of a request, of which only some are answered. -/
def reception (awaits : Bool) (stop : Option Fault) (frames : List (Bytes × Bool)) : Reception :=
  if awaits then received stop frames else ⟨.ok [], [], frames⟩

/-- The first intact frame is the reply, whatever is behind it. -/
theorem received_of_rejected {before : List (Bytes × Bool)} (h : before.countP (·.2) = 0)
    (stop : Option Fault) (payload : Bytes) (after : List (Bytes × Bool)) :
    received stop (before ++ (payload, true) :: after) =
      ⟨.ok payload, List.replicate before.length rejected ++ [accepted], after⟩ := by
  induction before with
  | nil => rfl
  | cons frame later ih =>
      obtain ⟨other, intact⟩ := frame
      cases intact with
      | true => simp at h
      | false =>
          rw [List.countP_cons_of_neg (by simp)] at h
          simp only [List.cons_append, received, ih h]
          rfl

/-- Where an intact frame comes first, what is behind it makes no difference. -/
theorem received_append {before : List (Bytes × Bool)} (h : 0 < before.countP (·.2))
    (stop : Option Fault) :
    ∃ payload written left, left.countP (·.2) + 1 = before.countP (·.2) ∧
      ∀ after, received stop (before ++ after) = ⟨.ok payload, written, left ++ after⟩ := by
  induction before with
  | nil => simp at h
  | cons frame later ih =>
      obtain ⟨payload, intact⟩ := frame
      cases intact with
      | true =>
          refine ⟨payload, [accepted], later, ?_, fun after => rfl⟩
          rw [List.countP_cons_of_pos rfl]
      | false =>
          rw [List.countP_cons_of_neg (by simp)] at h ⊢
          obtain ⟨reply, written, left, hcount, hreceived⟩ := ih h
          refine ⟨reply, rejected :: written, left, hcount, ?_⟩
          intro after
          simp only [List.cons_append, received, hreceived after]

/-- What is behind the frames that are used up makes no difference. -/
theorem reception_append {awaits : Bool} {before : List (Bytes × Bool)}
    (h : awaits = true → 0 < before.countP (·.2)) (stop : Option Fault) :
    ∃ payload written left, left.countP (·.2) + awaits.toNat = before.countP (·.2) ∧
      ∀ after, reception awaits stop (before ++ after) = ⟨.ok payload, written, left ++ after⟩ := by
  cases awaits with
  | false => exact ⟨[], [], before, rfl, fun _ => rfl⟩
  | true => exact received_append (h rfl) stop

/-! ## Links -/

namespace Link

/-- The frames that a link will find and the fault at which its stream will stop. -/
structure Expects (link : Link) (frames : List (Bytes × Bool)) (stop : Option Fault) : Prop where
  frames_eq : contents (drain (link.buffer ++ link.stream.delivery.1)).1 = frames
  stop_eq : link.stream.delivery.2 = stop

section Expects

variable {link : Link} {frames : List (Bytes × Bool)} {stop : Option Fault}

theorem Expects.write {stream : Stream} {bytes : Bytes} {outcome : Outcome Fault Unit}
    (h : link.Expects frames stop) (hwrite : link.stream.write bytes = (outcome, stream)) :
    Expects ⟨stream, link.buffer⟩ frames stop := by
  have hdelivery := Stream.delivery_of_write hwrite
  exact ⟨hdelivery ▸ h.frames_eq, hdelivery ▸ h.stop_eq⟩

/-- The first frame of the buffer is the first one expected. -/
theorem Expects.remove {frame : Frame} {rest : Bytes} (h : link.Expects frames stop)
    (hframe : extract? link.buffer = some (frame, rest)) :
    ∃ later, frames = (frame.payload, frame.intact) :: later ∧
      Expects ⟨link.stream, rest⟩ later stop := by
  obtain ⟨rfl, hstop⟩ := h
  refine ⟨_, ?_, rfl, hstop⟩
  rw [drain_append_of_some hframe]
  rfl

theorem Expects.read {stream : Stream} {bytes : Bytes} (h : link.Expects frames stop)
    (hbytes : bytes ≠ []) (hread : link.stream.read = (.ok bytes, stream)) :
    Expects ⟨stream, link.buffer ++ bytes⟩ frames stop := by
  obtain ⟨hframes, hstop⟩ := h
  have hdelivery := link.stream.delivery_eq
  rw [hread] at hdelivery
  cases bytes with
  | nil => exact absurd rfl hbytes
  | cons b bytes =>
      rw [hdelivery] at hframes hstop
      refine ⟨?_, hstop⟩
      rw [List.append_assoc]
      exact hframes

/-- A link without a frame in its buffer expects none if its stream delivers nothing more. -/
theorem Expects.stops {last : Option Fault} (h : link.Expects frames stop)
    (hnone : extract? link.buffer = none) (hdelivery : link.stream.delivery = ([], last)) :
    frames = [] ∧ stop = last := by
  obtain ⟨rfl, rfl⟩ := h
  rw [hdelivery, List.append_nil, drain_of_none hnone]
  exact ⟨rfl, rfl⟩

end Expects

/-- A receive whose writes succeed does what the expected frames make it do. -/
theorem Receives.reception {link last : Link} {history : List Event}
    {outcome : Outcome Fault Bytes} (h : Receives link history outcome last) :
    ∀ {frames : List (Bytes × Bool)} {stop : Option Fault}, link.Expects frames stop →
      (∀ result ∈ answered history, result = .ok ()) →
      outcome = (received stop frames).outcome ∧
        (attempted history).flatten = (received stop frames).written ∧
        ∀ payload, outcome = .ok payload → last.Expects (received stop frames).left stop := by
  induction h with
  | @returned link frame rest stream hframe hintact hwrite =>
      intro frames stop hexpects _
      obtain ⟨later, rfl, hlater⟩ := hexpects.remove hframe
      rw [hintact]
      refine ⟨rfl, ?_, fun _ _ => hlater.write hwrite⟩
      simp [Event.attempted?, received, Frame.acknowledgement, hintact]
  | @rejected link last frame rest stream history outcome hframe hbad hwrite _ ih =>
      intro frames stop hexpects hwrites
      obtain ⟨later, rfl, hlater⟩ := hexpects.remove hframe
      have hmore : ∀ result ∈ answered history, result = .ok () := by
        simpa [Event.answered?] using hwrites
      obtain ⟨houtcome, hwritten, hleft⟩ := ih (hlater.write hwrite) hmore
      rw [hbad]
      refine ⟨houtcome, ?_, hleft⟩
      simp [Event.attempted?, received, Frame.acknowledgement, hbad, hwritten]
  | writeFailed hframe hwrite =>
      intro frames stop _ hwrites
      simp [Event.answered?] at hwrites
  | writeStalled hframe hwrite =>
      intro frames stop _ hwrites
      simp [Event.answered?] at hwrites
  | @filled link last bytes stream history outcome hnone hbytes hread _ ih =>
      intro frames stop hexpects hwrites
      have hmore : ∀ result ∈ answered history, result = .ok () := by
        simpa [Event.answered?] using hwrites
      obtain ⟨houtcome, hwritten, hleft⟩ := ih (hexpects.read hbytes hread) hmore
      refine ⟨houtcome, ?_, hleft⟩
      simpa [Event.attempted?] using hwritten
  | closed hnone hread | readFailed hnone hread | readStalled hnone hread =>
      intro frames stop hexpects _
      obtain ⟨rfl, rfl⟩ := hexpects.stops hnone (by rw [Stream.delivery_eq, hread])
      exact ⟨rfl, rfl, by simp⟩

end Link

end Wire

namespace Session

open RemoteDebugger.Target RemoteDebugger.Wire

/-! ## Sessions -/

/-- No request is pending, and these frames and this fault are still to come. -/
structure Expects (session : Session) (frames : List (Bytes × Bool)) (stop : Option Fault) :
    Prop where
  pending : session.pending = none
  link : session.link.Expects frames stop

theorem expects_connect (stream : Stream) :
    (connect stream).2.Expects stream.frames stream.stop :=
  ⟨rfl, Link.Expects.write ⟨rfl, rfl⟩ rfl⟩

theorem exchange_of_expects {link : Link} {frames : List (Bytes × Bool)} {stop : Option Fault}
    {request : Request} (h : link.Expects frames stop)
    (hwrites : ∀ result ∈ answered (exchangeHistory link request), result = .ok ()) :
    let reception := reception request.expectsReply stop frames
    (exchange link request).1 = reception.outcome ∧
      (attempted (exchangeHistory link request)).flatten =
        encode request.payload ++ reception.written ∧
      ∀ payload, reception.outcome = .ok payload →
        (exchange link request).2.Expects reception.left stop := by
  have hsent : (link.send request.payload).2.Expects frames stop := h.write rfl
  simp only [exchangeHistory, exchange, answered_cons, attempted_cons] at hwrites ⊢
  generalize link.send request.payload = result at hsent hwrites ⊢
  obtain ⟨outcome, sent⟩ := result
  obtain ⟨hok, hmore⟩ := List.forall_mem_cons.mp hwrites
  obtain rfl : outcome = .ok () := hok
  cases hreply : request.expectsReply with
  | false => exact ⟨rfl, by simp [Event.attempted?, reception], fun _ _ => hsent⟩
  | true =>
      simp only [hreply, if_true] at hmore
      obtain ⟨houtcome, hwritten, hleft⟩ :=
        (Link.receives_receiveHistory sent).reception hsent hmore
      refine ⟨houtcome, ?_, ?_⟩
      · simpa [Event.attempted?, reception] using hwritten
      · intro payload hpayload
        exact hleft payload (houtcome.trans hpayload)

/-- The expected frames fix the outcome of a request, what is written for it, and what is expected
behind it. -/
theorem perform_of_expects {session : Session} {frames : List (Bytes × Bool)}
    {stop : Option Fault} {request : Request} (h : session.Expects frames stop)
    (hsize : request.oversize? = none) (hsends : session.Sends [request]) :
    let reception := reception request.expectsReply stop frames
    (session.perform request).1 =
        (reception.outcome.mapError .connection).andThen request.decode ∧
      (session.perform request).2.link.stream.Extends session.link.stream
        (encode request.payload ++ reception.written) ∧
      ∀ payload, reception.outcome = .ok payload →
        (session.perform request).2.Expects reception.left stop := by
  intro reception
  have hwrites := sends_singleton.mp hsends
  have hextends := (moves_historyOf session request).extends_of_answered hwrites
  have hhistory : session.historyOf request = exchangeHistory session.link request := by
    rw [historyOf, hsize, h.pending]
  have hperform : session.perform request =
      (((exchange session.link request).1.mapError .connection).andThen request.decode,
        ⟨(exchange session.link request).2,
          if (exchange session.link request).1.isAbandoned then some request.name else none⟩) := by
    simp only [perform, hsize, h.pending]
  rw [hhistory] at hwrites hextends
  obtain ⟨houtcome, hwritten, hleft⟩ := exchange_of_expects h.link hwrites
  rw [hwritten] at hextends
  rw [hperform, houtcome] at hextends ⊢
  refine ⟨rfl, hextends, ?_⟩
  intro payload hpayload
  refine ⟨?_, hleft payload hpayload⟩
  change (if reception.outcome.isAbandoned then some request.name else none) = none
  rw [hpayload]
  rfl

end Session

end RemoteDebugger
