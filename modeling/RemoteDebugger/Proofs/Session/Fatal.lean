import RemoteDebugger.Proofs.Session.Pairing
import RemoteDebugger.Proofs.Target.Decoding

/-!
# What follows a fatal error

After a fatal error a session is meant to be of no more use.  Where a request is still pending or
where a write has failed this holds: no later request is sent or answered (`Session.Silent`).  Where
a read has failed it does not.  The mark of the request is cleared with the error, so that nothing
refuses the next one, and a reply that comes late is decoded as the answer to that.
-/

namespace RemoteDebugger

namespace Wire

/-! ## Streams without room -/

/-- Whether a fault is met in reading, not in writing. -/
def Fault.isRead : Fault → Bool
  | .closed | .failed _ => true
  | .brokenPipe | .writeZero => false

theorem Stream.room_of_write_error {stream after : Stream} {bytes : Bytes} {fault : Fault}
    (h : stream.write bytes = (.error fault, after)) : after.room = some 0 := by
  unfold Stream.write at h
  split at h
  · cases h
  · next room _ =>
      by_cases hfits : bytes.length ≤ room
      · simp [hfits] at h
      · have hnone : room - bytes.length = 0 := by omega
        simp only [hfits, if_false, hnone, Prod.mk.injEq] at h
        rw [← h.2]

/-- A stream without room accepts nothing of a write, and has no room after it. -/
theorem Stream.write_of_full {stream : Stream} {bytes : Bytes} (hroom : stream.room = some 0)
    (hbytes : bytes ≠ []) :
    (stream.write bytes).1 ≠ .ok () ∧ (stream.write bytes).2.room = some 0 ∧
      (stream.write bytes).2.Extends stream [] := by
  have hlong : ¬ bytes.length ≤ 0 := by
    simpa using hbytes
  simp only [Stream.write, hroom, hlong, if_false]
  refine ⟨?_, by simp, [[]], by simp, rfl⟩
  cases stream.writeEnd <;> simp

/-- A stream with room accepts some of every write. -/
theorem Stream.writtenSince_write_ne_nil {stream : Stream} {bytes : Bytes}
    (hroom : stream.room ≠ some 0) (hbytes : bytes ≠ []) :
    (stream.write bytes).2.writtenSince stream ≠ [] := by
  cases h : stream.room with
  | none =>
      have hextends : (stream.write bytes).2.Extends stream bytes := by
        refine ⟨[bytes], ?_, by simp⟩
        simp [Stream.write, h]
      rw [hextends.writtenSince_eq]
      exact hbytes
  | some room =>
      have hextends : (stream.write bytes).2.Extends stream (bytes.take room) := by
        refine ⟨[bytes.take room], ?_, by simp⟩
        simp [Stream.write, h]
      have hpositive : room ≠ 0 := by
        rintro rfl
        exact hroom h
      rw [hextends.writtenSince_eq]
      simpa [hpositive] using hbytes

theorem Stream.isRead_of_read_error {stream after : Stream} {fault : Fault}
    (h : stream.read = (.error fault, after)) : fault.isRead = true := by
  unfold Stream.read at h
  split at h
  · split at h <;> cases h
  · cases h
  · cases h
    rfl
  · cases h

theorem encode_ne_nil (payload : Bytes) : encode payload ≠ [] := by
  simp [encode]

/-- A receive that fails at one of its writes leaves the stream without room. -/
theorem Link.Receives.room_of_error {link last : Link} {history : List Event}
    {outcome : Outcome Fault Bytes} (h : Receives link history outcome last) :
    ∀ {fault : Fault}, outcome = .error fault → fault.isRead = false →
      last.stream.room = some 0 := by
  induction h with
  | returned =>
      intro fault hfault
      cases hfault
  | rejected _ _ _ _ ih => exact ih
  | writeFailed _ hwrite =>
      intro fault _ _
      exact Stream.room_of_write_error hwrite
  | writeStalled =>
      intro fault hfault
      cases hfault
  | filled _ _ _ _ ih => exact ih
  | closed =>
      intro fault hfault hwrite
      cases hfault
      cases hwrite
  | readFailed _ hread =>
      intro fault hfault hwrite
      cases hfault
      rw [Stream.isRead_of_read_error hread] at hwrite
      cases hwrite
  | readStalled =>
      intro fault hfault
      cases hfault

end Wire

namespace Session

open RemoteDebugger.Target RemoteDebugger.Wire

/-! ## Sessions that are of no more use -/

/-- No request is sent any more, not even in part, and none is answered. -/
def Silent (session : Session) : Prop :=
  ∀ requests, ∀ step ∈ (session.run requests).1,
    step.written = [] ∧ ∀ reply, step.outcome ≠ .ok reply

/-- A request is pending, or the stream has no room. -/
def Blocked (session : Session) : Prop :=
  session.isPending = true ∨ session.link.stream.room = some 0

theorem room_of_exchange_error {link : Link} {request : Request} {fault : Fault}
    (h : (exchange link request).1 = .error fault) (hwrite : fault.isRead = false) :
    (exchange link request).2.stream.room = some 0 := by
  unfold exchange at h ⊢
  rcases hsend : link.send request.payload with ⟨_ | reason | _, sent⟩
  · simp only [hsend] at h ⊢
    cases hreply : request.expectsReply with
    | true =>
        simp only [hreply, if_true] at h ⊢
        exact (Link.receives_receiveHistory sent).room_of_error h hwrite
    | false => simp [hreply] at h
  · have hlast : link.stream.write (encode request.payload) = (.error reason, sent.stream) := by
      simp only [Link.send, Link.write, Prod.mk.injEq] at hsend
      rw [← hsend.1, ← hsend.2]
    exact Stream.room_of_write_error hlast
  · simp [hsend] at h

theorem exchange_of_full {link : Link} (request : Request) (hroom : link.stream.room = some 0) :
    (∀ payload, (exchange link request).1 ≠ .ok payload) ∧
      (exchange link request).2.stream.room = some 0 ∧
      (exchange link request).2.stream.Extends link.stream [] := by
  obtain ⟨hfails, hfull, hnothing⟩ :=
    Stream.write_of_full hroom (encode_ne_nil request.payload)
  unfold exchange Link.send Link.write
  rcases hwrite : link.stream.write (encode request.payload) with ⟨_ | fault | _, stream⟩
  · simp [hwrite] at hfails
  · rw [hwrite] at hfull hnothing
    exact ⟨by simp, hfull, hnothing⟩
  · rw [hwrite] at hfull hnothing
    exact ⟨by simp, hfull, hnothing⟩

/-- A blocked session sends and answers no request, and stays blocked. -/
theorem perform_of_blocked {session : Session} (h : session.Blocked) (request : Request) :
    (∀ reply, (session.perform request).1 ≠ .ok reply) ∧
      (session.perform request).2.link.stream.Extends session.link.stream [] ∧
      (session.perform request).2.Blocked := by
  have hnothing : session.link.stream.Extends session.link.stream [] := ⟨[], rfl, rfl⟩
  cases hsize : request.oversize? with
  | some size =>
      simp only [perform, hsize]
      exact ⟨by simp, hnothing, h⟩
  | none =>
      cases hpending : session.pending with
      | some name =>
          simp only [perform, hsize, hpending]
          exact ⟨by simp, hnothing, h⟩
      | none =>
          have hroom : session.link.stream.room = some 0 := by
            simpa [Blocked, isPending, hpending] using h
          obtain ⟨hfails, hfull, hextends⟩ := exchange_of_full request hroom
          simp only [perform, hsize, hpending]
          refine ⟨?_, hextends, Or.inr hfull⟩
          cases houtcome : (exchange session.link request).1 with
          | ok payload => exact absurd houtcome (hfails payload)
          | error fault => simp [Outcome.mapError, Outcome.andThen]
          | abandoned => simp [Outcome.mapError, Outcome.andThen]

theorem silent_of_blocked {session : Session} (h : session.Blocked) : session.Silent := by
  intro requests
  induction requests generalizing session with
  | nil => simp [run]
  | cons request later ih =>
      obtain ⟨hfails, hnothing, hblocked⟩ := perform_of_blocked h request
      rw [run_cons]
      intro step hstep
      rcases List.mem_cons.mp hstep with rfl | hstep
      · exact ⟨hnothing.writtenSince_eq, hfails⟩
      · exact ih hblocked step hstep

theorem written_perform_reset_ne_nil {session : Session} (h : ¬ session.Blocked) :
    (session.perform .reset).2.link.stream.writtenSince session.link.stream ≠ [] := by
  have hpending : session.pending = none := by
    cases hmark : session.pending with
    | none => rfl
    | some name => exact absurd (Or.inl (by simp [isPending, hmark])) h
  have hroom : session.link.stream.room ≠ some 0 := fun hfull => h (Or.inr hfull)
  have hlink : (session.perform .reset).2.link = (session.link.send Request.reset.payload).2 := by
    simp only [perform, Request.oversize?, hpending, exchange]
    rcases session.link.send Request.reset.payload with ⟨_ | _ | _, sent⟩ <;> rfl
  rw [hlink]
  exact Stream.writtenSince_write_ne_nil hroom (encode_ne_nil _)

/-- A session is of no more use exactly if a request is pending or its stream has no room. -/
theorem silent_iff_blocked {session : Session} : session.Silent ↔ session.Blocked := by
  constructor
  · intro hsilent
    by_cases hblocked : session.Blocked
    · exact hblocked
    · have hstep := hsilent [.reset] _ List.mem_cons_self
      exact absurd hstep.1 (written_perform_reset_ne_nil hblocked)
  · exact silent_of_blocked

/-! ## How a request fails -/

/-- A request fails because it does not fit, because another one is pending, with the connection, or
at the content of its reply; in the first two cases nothing has changed. -/
theorem perform_error_cases {session : Session} {request : Request} {error : Error}
    (h : (session.perform request).1 = .error error) :
    (∃ size, request.oversize? = some size ∧ error = .requestTooLarge size) ∨
      (∃ name, session.pending = some name ∧ error = .requestPending name ∧
        (session.perform request).2 = session) ∨
      (∃ fault, error = .connection fault ∧ (exchange session.link request).1 = .error fault ∧
        (session.perform request).2 = ⟨(exchange session.link request).2, none⟩) ∨
      error.isReply = true := by
  cases hsize : request.oversize? with
  | some size =>
      simp only [perform, hsize, Outcome.error.injEq] at h
      exact Or.inl ⟨size, rfl, h.symm⟩
  | none =>
      cases hpending : session.pending with
      | some name =>
          simp only [perform, hsize, hpending, Outcome.error.injEq] at h ⊢
          exact Or.inr (Or.inl ⟨name, rfl, h.symm, trivial⟩)
      | none =>
          simp only [perform, hsize, hpending] at h ⊢
          cases houtcome : (exchange session.link request).1 with
          | error fault =>
              simp only [houtcome, Outcome.mapError, Outcome.andThen, Outcome.error.injEq] at h
              exact Or.inr (Or.inr (Or.inl ⟨fault, h.symm, rfl, by simp [Outcome.isAbandoned]⟩))
          | abandoned =>
              rw [houtcome] at h
              cases h
          | ok payload =>
              cases hdecode : request.decode payload with
              | ok reply =>
                  simp [houtcome, Outcome.mapError, Outcome.andThen, hdecode, Outcome.ofExcept] at h
              | error reason =>
                  have hsame : reason = error := by
                    simpa [houtcome, Outcome.mapError, Outcome.andThen, hdecode,
                      Outcome.ofExcept] using h
                  exact Or.inr (Or.inr (Or.inr (hsame ▸ Request.isReply_of_decode hdecode)))

/-- A fatal error comes from a request that was pending before, and then nothing has changed, or
from the connection, and then no request is pending. -/
theorem perform_of_fatal {session : Session} {request : Request} {error : Error}
    (hfails : (session.perform request).1 = .error error) (hfatal : error.isFatal = true) :
    (∃ name, error = .requestPending name ∧ session.pending = some name ∧
        (session.perform request).2 = session) ∨
      ∃ fault, error = .connection fault ∧ (exchange session.link request).1 = .error fault ∧
        (session.perform request).2 = ⟨(exchange session.link request).2, none⟩ := by
  rcases perform_error_cases hfails with ⟨size, -, rfl⟩ | ⟨name, hpending, herror, hsame⟩ |
    hconnection | hreply
  · cases hfatal
  · exact Or.inl ⟨name, herror, hpending, hsame⟩
  · exact Or.inr hconnection
  · rw [Error.isFatal_of_isReply hreply] at hfatal
    cases hfatal

/-! ## Fatal errors -/

/-- Behind a fatal error the session is silent if a request is pending or if a write has failed.  If
a read has failed it is silent only without room to write; it then takes the frames that still come
for the replies to later requests, as a session does that was opened anew. -/
theorem run_after_fatal {session : Session} {request : Request} {error : Error}
    (hfails : (session.perform request).1 = .error error) (hfatal : error.isFatal = true) :
    let failed := (session.perform request).2
    (∀ name, error = .requestPending name → failed.Silent) ∧
      ∀ fault, error = .connection fault →
        failed.isPending = false ∧
        (fault.isRead = false → failed.Silent) ∧
        (failed.Silent ↔ failed.link.stream.room = some 0) ∧
        ∀ frames later, failed.link.Awaits frames →
          failed.link.stream.Accepts ((expectedRun frames later).flatMap Step.written).length →
          (failed.run later).1 = expectedRun frames later := by
  intro failed
  obtain ⟨name, rfl, hpending, hsame⟩ | ⟨fault, rfl, hexchange, hlast⟩ :=
    perform_of_fatal hfails hfatal
  · have hblocked : failed.Blocked := by
      left
      simp only [failed, hsame, isPending, hpending, Option.isSome_some]
    refine ⟨fun _ _ => silent_of_blocked hblocked, ?_⟩
    intro fault hfault
    cases hfault
  · refine ⟨?_, ?_⟩
    · intro name hname
      cases hname
    · intro reason hreason
      cases hreason
      have hclear : failed.pending = none := by
        simp only [failed, hlast]
      have hroom : fault.isRead = false → failed.link.stream.room = some 0 := by
        intro hwrite
        simp only [failed, hlast]
        exact room_of_exchange_error hexchange hwrite
      have hsilent : failed.Silent ↔ failed.link.stream.room = some 0 := by
        simp [silent_iff_blocked, Blocked, isPending, hclear]
      refine ⟨by simp [isPending, hclear], fun hwrite => hsilent.mpr (hroom hwrite), hsilent, ?_⟩
      intro frames later hawaits haccepts
      exact run_expected later hclear hawaits haccepts

/-- A stream whose first read fails and on which a stop reply comes later. -/
def interrupted : Stream where
  events := [.failure "reset by peer", .data (accepted :: encode [0x53, 0x30, 0x35])]

theorem run_after_reset_by_peer :
    let failed := (connect interrupted).2.perform (.control .query)
    failed.1 = .error (.connection (.failed "reset by peer")) ∧
      (failed.2.run [.control .step]).1 =
        [⟨.control .step, .ok ⟨5, none⟩, encode (Request.control .step).payload ++ [accepted],
          false⟩] := by
  intro failed
  have hfails : failed.1 = .error (.connection (.failed "reset by peer")) := by
    decide +kernel
  let arrived := accepted :: encode [0x53, 0x30, 0x35]
  have hlink : failed.2.link.Awaits [⟨[0x53, 0x30, 0x35], true, 8⟩] := by
    refine ⟨arrived, ⟨by decide +kernel, [arrived], 0, ?_⟩, ?_⟩
    · decide +kernel
    · decide +kernel
  obtain ⟨-, hconnection⟩ := run_after_fatal hfails rfl
  obtain ⟨-, -, -, hrun⟩ := hconnection _ rfl
  refine ⟨hfails, (hrun _ [.control .step] hlink ?_).trans ?_⟩
  · intro room hroom
    have hunlimited : failed.2.link.stream.room = none := by decide +kernel
    rw [hunlimited] at hroom
    cases hroom
  · rfl

/-- A fatal error does not end a session: after a read that failed, the next request is sent, and
the reply that comes late is returned as the answer to it. -/
theorem not_silent_after_fatal :
    ¬ ∀ (stream : Stream) (request : Request) (error : Error),
      ((connect stream).2.perform request).1 = .error error → error.isFatal = true →
        ((connect stream).2.perform request).2.Silent := by
  intro hsilent
  have hfails : ((connect interrupted).2.perform (.control .query)).1 =
      .error (.connection (.failed "reset by peer")) := by
    decide +kernel
  have hrun := hsilent interrupted (.control .query) _ hfails rfl [.control .step] _
    List.mem_cons_self
  exact hrun.2 ⟨5, none⟩ (by decide +kernel)

end Session

end RemoteDebugger
