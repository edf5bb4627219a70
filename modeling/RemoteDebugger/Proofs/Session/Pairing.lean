import RemoteDebugger.Proofs.Wire.Delivery
import RemoteDebugger.Session

/-!
# Requests and their replies

Frames carry no mark of the request that they answer.  On a stream that delivers, the session pairs
them by their order: the request that is sent as number `k` of those that are answered gets the
payload of intact frame number `k`, whatever was decoded before and however often the target was
reset in between.
-/

namespace RemoteDebugger.Session

open RemoteDebugger.Target RemoteDebugger.Wire

/-- Whether a request is sent and answered by a frame. -/
def awaitsReply (request : Request) : Bool :=
  request.expectsReply && request.oversize?.isNone

/-- The outcome that is expected of a request before which `index` replies have been taken: its own
decoding of the next payload, and the end of the stream if there is none.  A reset succeeds without
a reply, and a write that is too large is refused. -/
def expectedReply (frames : List Frame) (index : Nat) :
    (request : Request) → Outcome Error request.Reply
  | .reset => .ok ()
  | request =>
      match request.oversize? with
      | some size => .error (.requestTooLarge size)
      | none =>
          match (payloads frames)[index]? with
          | some payload => .ofExcept (request.decode payload)
          | none => .error (.connection .closed)

/-- What is expected to be written for a request: nothing if it is refused, and else its frame and
the acknowledgements of what is received. -/
def expectedBytes (frames : List Frame) (index : Nat) (request : Request) : Bytes :=
  match request.oversize? with
  | some _ => []
  | none =>
      encode request.payload ++ if request.expectsReply then expectedWritten frames index else []

def expectedStep (frames : List Frame) (index : Nat) (request : Request) : Step where
  request
  outcome := expectedReply frames index request
  written := expectedBytes frames index request
  pending := false

/-- The run that is expected of a list of requests on a stream that delivers `frames`. -/
def expectedRun (frames : List Frame) (requests : List Request) : List Step :=
  requests.mapIdx fun position request =>
    expectedStep frames ((requests.take position).countP awaitsReply) request

def leftover (frames : List Frame) (request : Request) : List Frame :=
  if awaitsReply request then afterIntact frames else frames

theorem expectedReply_of_oversize {frames : List Frame} {index size : Nat} {request : Request}
    (hsize : request.oversize? = some size) :
    expectedReply frames index request = .error (.requestTooLarge size) := by
  cases request with
  | reset => cases hsize
  | _ => simp only [expectedReply, hsize]

/-- The expected reply is the expected outcome of a receive, decoded for the request. -/
theorem expectedReply_eq {frames : List Frame} {index : Nat} {request : Request}
    (hsize : request.oversize? = none) :
    expectedReply frames index request =
      ((if request.expectsReply then expectedOutcome frames index else .ok []).mapError
        .connection).andThen request.decode := by
  cases request with
  | reset => rfl
  | _ =>
      simp only [expectedReply, hsize, expectedOutcome, Request.expectsReply, if_true]
      cases (payloads frames)[index]? <;> rfl

theorem expectedStep_succ {frames : List Frame} {index : Nat} {request : Request} :
    expectedStep frames (index + 1) request = expectedStep (afterIntact frames) index request := by
  obtain ⟨houtcome, hwritten⟩ := expected_succ frames index
  cases hsize : request.oversize? with
  | some size => simp only [expectedStep, expectedReply_of_oversize hsize, expectedBytes, hsize]
  | none => simp only [expectedStep, expectedReply_eq hsize, expectedBytes, houtcome, hwritten]

theorem expectedRun_cons (frames : List Frame) (request : Request) (later : List Request) :
    expectedRun frames (request :: later) =
      expectedStep frames 0 request :: expectedRun (leftover frames request) later := by
  cases h : awaitsReply request with
  | true => simp [expectedRun, List.mapIdx_cons, leftover, h, expectedStep_succ]
  | false => simp [expectedRun, List.mapIdx_cons, leftover, h]

/-! ## One request -/

/-- An exchange on a link that awaits `frames` sends the request and takes its reply from them. -/
theorem exchange_expected {link : Link} {frames : List Frame} {count : Nat} {request : Request}
    (hsize : request.oversize? = none) (hawaits : link.Awaits frames)
    (haccepts : link.stream.Accepts ((expectedBytes frames 0 request).length + count)) :
    (exchange link request).1 =
        (if request.expectsReply then expectedOutcome frames 0 else .ok []) ∧
      (exchange link request).2.stream.Extends link.stream (expectedBytes frames 0 request) ∧
      (exchange link request).2.Awaits (leftover frames request) ∧
      (exchange link request).2.stream.Accepts count := by
  simp only [expectedBytes, hsize, List.length_append, Nat.add_assoc] at haccepts ⊢
  obtain ⟨hsent, hextends, hafter, hroom⟩ := hawaits.write haccepts
  rcases hwrite : link.write (encode request.payload) with ⟨outcome, sent⟩
  rw [hwrite] at hsent hextends hafter hroom
  dsimp only at hsent hextends hafter hroom
  cases hreply : request.expectsReply with
  | true =>
      rw [hreply] at hroom
      obtain ⟨houtcome, hmore, hlast, hleft⟩ :=
        (Link.receives_receiveHistory sent).expected hafter hroom
      simp only [exchange, Link.send, hwrite, hsent, hreply, if_true, leftover, awaitsReply, hsize]
      exact ⟨houtcome, hmore.trans hextends, hlast, hleft⟩
  | false =>
      rw [hreply] at hroom
      simp only [exchange, Link.send, hwrite, hsent, hreply, leftover, awaitsReply]
      refine ⟨rfl, ?_, hafter, ?_⟩
      · simpa using hextends
      · simpa using hroom

theorem perform_expected {session : Session} {frames : List Frame} {count : Nat}
    {request : Request} (hpending : session.pending = none) (hawaits : session.link.Awaits frames)
    (haccepts : session.link.stream.Accepts
      ((expectedStep frames 0 request).written.length + count)) :
    ⟨request, (session.perform request).1,
        (session.perform request).2.link.stream.writtenSince session.link.stream,
        (session.perform request).2.isPending⟩ = expectedStep frames 0 request ∧
      (session.perform request).2.pending = none ∧
      (session.perform request).2.link.Awaits (leftover frames request) ∧
      (session.perform request).2.link.stream.Accepts count := by
  cases hsize : request.oversize? with
  | some size =>
      have hperform : session.perform request = (.error (.requestTooLarge size), session) := by
        simp only [perform, hsize]
      have hnothing : session.link.stream.Extends session.link.stream [] := ⟨[], rfl, rfl⟩
      simp only [expectedStep, expectedBytes, hsize, List.length_nil, Nat.zero_add] at haccepts
      rw [hperform]
      refine ⟨?_, hpending, ?_, haccepts⟩
      · simp [expectedStep, expectedReply_of_oversize hsize, expectedBytes, hsize, isPending,
          hpending, hnothing.writtenSince_eq]
      · simpa [leftover, awaitsReply, hsize] using hawaits
  | none =>
      obtain ⟨houtcome, hextends, hlast, hroom⟩ := exchange_expected hsize hawaits haccepts
      have hended : (exchange session.link request).1.isAbandoned = false := by
        rw [houtcome]
        split
        · exact isAbandoned_expectedOutcome frames 0
        · rfl
      have hreply : ((exchange session.link request).1.mapError .connection).andThen request.decode =
          expectedReply frames 0 request := by
        rw [houtcome, expectedReply_eq hsize]
      have hperform : session.perform request =
          (expectedReply frames 0 request, ⟨(exchange session.link request).2, none⟩) := by
        simp only [perform, hsize, hpending, hreply, hended, Bool.false_eq_true, if_false]
      rw [hperform]
      refine ⟨?_, rfl, hlast, hroom⟩
      simp only [expectedStep, hextends.writtenSince_eq, isPending, Option.isSome_none]

theorem run_expected {session : Session} {frames : List Frame} (requests : List Request)
    (hpending : session.pending = none) (hawaits : session.link.Awaits frames)
    (haccepts : session.link.stream.Accepts
      ((expectedRun frames requests).flatMap Step.written).length) :
    (session.run requests).1 = expectedRun frames requests := by
  induction requests generalizing session frames with
  | nil => rfl
  | cons request later ih =>
      rw [expectedRun_cons, List.flatMap_cons, List.length_append] at haccepts
      obtain ⟨hstep, hnone, hlast, hroom⟩ := perform_expected hpending hawaits haccepts
      rw [run_cons, expectedRun_cons, ← hstep, ← ih hnone hlast hroom]

/-- On a stream that delivers, every answered request returns its own decoding of the payload that
comes at its place among the intact frames. -/
theorem run_pairs_replies {stream : Stream} {bytes : Bytes} {requests : List Request}
    (hdelivers : stream.Delivers bytes)
    (haccepts : stream.Accepts
      (1 + ((expectedRun (drain bytes).1 requests).flatMap Step.written).length)) :
    (connect stream).1 = .ok () ∧
      ((connect stream).2.run requests).1 = expectedRun (drain bytes).1 requests := by
  obtain ⟨hopen, hawaits, hroom⟩ := Link.awaits_start hdelivers haccepts
  refine ⟨?_, run_expected requests rfl hawaits hroom⟩
  simp only [connect, hopen, Outcome.mapError]

theorem replies_fragmented :
    fragmented.Delivers fragments.flatten ∧
      ((connect fragmented).2.run [.reset, .writeMemory 0x0200 [0xA9], .registers]).1 =
        [⟨.reset, .ok (), encode Request.reset.payload, false⟩,
          ⟨.writeMemory 0x0200 [0xA9], .ok true,
            encode (Request.writeMemory 0x0200 [0xA9]).payload ++ [rejected, accepted], false⟩,
          ⟨.registers, .error (.connection .closed), encode Request.registers.payload, false⟩] := by
  have haccepts : fragmented.Accepts (1 + ((expectedRun (drain fragments.flatten).1
      [.reset, .writeMemory 0x0200 [0xA9], .registers]).flatMap Step.written).length) := by
    intro room hroom
    rw [drain_fragments]
    cases hroom
    decide +kernel
  obtain ⟨-, hrun⟩ := run_pairs_replies delivers_fragmented haccepts
  rw [hrun, drain_fragments]
  exact ⟨delivers_fragmented, rfl⟩

end RemoteDebugger.Session
