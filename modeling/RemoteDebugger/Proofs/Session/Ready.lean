import RemoteDebugger.Proofs.Session.Fatal
import RemoteDebugger.Proofs.Session.Pending

/-!
# Sessions that are never held up

A stream whose reads and writes are all ready stays so whatever is read and written.  A session over
it abandons no request, so that none is ever pending, and its only errors are those of the
connection and those that tell of the content of a reply.
-/

namespace RemoteDebugger

namespace Wire

/-- Every read and every write is ready: a read meets data, the end of the stream or a failure, and
a write without room fails. -/
structure Stream.Ready (stream : Stream) : Prop where
  ends : stream.stalls = false
  reads : .notReady ∉ stream.events
  writes : stream.writeEnd ≠ .notReady

theorem Stream.Ready.read {stream after : Stream} {outcome : Outcome Fault Bytes}
    (h : stream.Ready) (hread : stream.read = (outcome, after)) :
    outcome.isAbandoned = false ∧ after.Ready := by
  obtain ⟨hends, hreads, hwrites⟩ := h
  unfold Stream.read at hread
  split at hread
  · cases hread
    exact ⟨by simp [hends, Outcome.isAbandoned], hends, hreads, hwrites⟩
  · next hevents =>
      exact absurd (hevents ▸ List.mem_cons_self) hreads
  · next hevents =>
      cases hread
      exact ⟨rfl, hends, fun hmem => hreads (hevents ▸ List.mem_cons_of_mem _ hmem), hwrites⟩
  · next bytes later hevents =>
      cases hread
      have hlater : .notReady ∉ later := fun hmem =>
        hreads (hevents ▸ List.mem_cons_of_mem _ hmem)
      refine ⟨rfl, hends, ?_, hwrites⟩
      split
      · exact hlater
      · simpa using hlater

theorem Stream.Ready.write {stream after : Stream} {bytes : Bytes} {outcome : Outcome Fault Unit}
    (h : stream.Ready) (hwrite : stream.write bytes = (outcome, after)) :
    outcome.isAbandoned = false ∧ after.Ready := by
  obtain ⟨hends, hreads, hwrites⟩ := h
  unfold Stream.write at hwrite
  split at hwrite
  · cases hwrite
    exact ⟨rfl, hends, hreads, hwrites⟩
  · cases hwrite
    refine ⟨?_, hends, hreads, hwrites⟩
    split
    · rfl
    · cases hend : stream.writeEnd with
      | notReady => exact absurd hend hwrites
      | _ => rfl

/-- No operation on a ready stream is abandoned, and the stream stays ready. -/
theorem Link.Moves.ready {link last : Link} {history : List Event}
    (h : Moves link history last) :
    link.stream.Ready → history.any Event.isStall = false ∧ last.stream.Ready := by
  induction h with
  | done => exact fun hready => ⟨rfl, hready⟩
  | @read link last outcome stream later hread _ ih =>
      intro hready
      obtain ⟨houtcome, hafter⟩ := hready.read hread
      obtain ⟨hlater, hlast⟩ := ih hafter
      refine ⟨?_, hlast⟩
      cases outcome with
      | abandoned => cases houtcome
      | _ => simpa [Event.isStall] using hlater
  | @write link last bytes outcome stream later hwrite _ ih =>
      intro hready
      obtain ⟨houtcome, hafter⟩ := hready.write hwrite
      obtain ⟨hlater, hlast⟩ := ih hafter
      refine ⟨?_, hlast⟩
      cases outcome with
      | abandoned => cases houtcome
      | _ => simpa [Event.isStall] using hlater
  | remove _ _ ih =>
      intro hready
      obtain ⟨hlater, hlast⟩ := ih hready
      exact ⟨by simpa [Event.isStall] using hlater, hlast⟩

end Wire

namespace Session

open RemoteDebugger.Target RemoteDebugger.Wire

/-- No request is pending, and none will be. -/
structure Ready (session : Session) : Prop where
  stream : session.link.stream.Ready
  pending : session.pending = none

theorem ready_connect {stream : Stream} (h : stream.Ready) :
    (connect stream).1.isAbandoned = false ∧ (connect stream).2.Ready := by
  rcases hwrite : stream.write [accepted] with ⟨outcome, after⟩
  obtain ⟨houtcome, hafter⟩ := h.write hwrite
  simp only [connect, Link.start, Link.write, hwrite, Outcome.isAbandoned_mapError]
  exact ⟨houtcome, hafter, rfl⟩

theorem error_of_connect {stream : Stream} {error : Error} (h : (connect stream).1 = .error error) :
    ∃ fault, error = .connection fault := by
  change (Link.start stream).1.mapError Error.connection = .error error at h
  cases houtcome : (Link.start stream).1 with
  | error fault =>
      rw [houtcome] at h
      cases h
      exact ⟨fault, rfl⟩
  | _ => simp [houtcome, Outcome.mapError] at h

theorem ready_perform {session : Session} (h : session.Ready) (request : Request) :
    (session.perform request).1.isAbandoned = false ∧ (session.perform request).2.Ready := by
  obtain ⟨hstalls, hstream⟩ := (moves_historyOf session request).ready h.stream
  rw [any_isStall_historyOf] at hstalls
  refine ⟨hstalls, hstream, ?_⟩
  rw [pending_perform, hstalls]
  exact h.pending

/-- Without a pending request, one that fits fails with the connection or at the content of its
reply. -/
theorem error_of_perform {session : Session} {request : Request} {error : Error}
    (hpending : session.pending = none) (hsize : request.oversize? = none)
    (h : (session.perform request).1 = .error error) :
    (∃ fault, error = .connection fault) ∨ error.isReply = true := by
  rcases perform_error_cases h with ⟨size, hlarge, -⟩ | ⟨name, hname, -, -⟩ |
    ⟨fault, hfault, -, -⟩ | hreply
  · rw [hsize] at hlarge
    cases hlarge
  · rw [hpending] at hname
    cases hname
  · exact Or.inl ⟨fault, hfault⟩
  · exact Or.inr hreply

end Session

end RemoteDebugger
