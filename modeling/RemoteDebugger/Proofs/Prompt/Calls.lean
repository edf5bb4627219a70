import RemoteDebugger.Proofs.Prompt.ProgramCounter
import RemoteDebugger.Proofs.Session.Transcript

/-!
# The calls of a run

A run asks the target for its state and then makes the requests of its lines.  `calls` lists them
and `answeredRounds` the rounds in which they are made, both up to the line that ends the run, so
that what a session does over its requests can be read as what a run does over its lines.
-/

namespace RemoteDebugger.Prompt

open RemoteDebugger.Target RemoteDebugger.Wire

section Calls

variable (listing : Option Listing.Document) (stream : Stream) (lines : List String)

/-- The turn that asks for the state of the target, and the debugger at the first prompt. -/
def opening : Debugger.Turn × Debugger :=
  ({ session := (Session.connect stream).2, listing } : Debugger).queryState

/-- The rounds of the lines that are read. -/
def answeredRounds : List Round :=
  if (opening listing stream).1.goesOn then rounds (opening listing stream).2 lines else []

/-- The requests of a run. -/
def calls : List Request :=
  .control .query ::
    if (opening listing stream).1.goesOn then (opening listing stream).2.requests lines else []

/-- The requests that a run has made when it comes to the line of this index. -/
def earlierCalls (index : Nat) : List Request :=
  .control .query :: (opening listing stream).2.requests (lines.take index)

/-- Every write of a run succeeds, in opening the session and for each of its requests. -/
structure WritesSucceed : Prop where
  opens : (Session.connect stream).1 = .ok ()
  sends : (Session.connect stream).2.Sends (calls listing stream lines)

end Calls

variable {listing : Option Listing.Document} {stream : Stream} {lines : List String}

theorem opening_eq : (opening listing stream).2 =
    ({ session := (Session.connect stream).2, listing } : Debugger).afterRequest
      (.control .query) := by
  rw [opening, Debugger.queryState_eq]

/-- The steps of a run are that of the query and those of its rounds. -/
theorem debug_eq (hopen : (Session.connect stream).1 = .ok ()) :
    debug listing stream lines =
      (⟨(opening listing stream).1.shown,
          (opening listing stream).2.stream.writtenSince stream⟩ ::
        (answeredRounds listing stream lines).map Round.step,
        if (opening listing stream).1.goesOn then endingAfter (answeredRounds listing stream lines)
        else (opening listing stream).1.ending .query) := by
  rcases hconnect : Session.connect stream with ⟨outcome, session⟩
  rw [hconnect] at hopen
  obtain rfl : outcome = .ok () := hopen
  simp only [debug, answeredRounds, opening, hconnect]
  split <;> rfl

theorem run_eq {environment : Environment} {arguments : List String} {options : Options}
    (hoptions : Options.parse arguments = .ok options)
    (hlisting : loadOptional environment.file? options = .ok listing)
    (hconnect : environment.connect options.address options.port = .ok stream) :
    run environment arguments = .ok {
      logFilter := options.logFilter
      connectedTo := some (endpoint options.address options.port)
      steps := (debug listing stream environment.lines).1
      ending := (debug listing stream environment.lines).2 } := by
  have hrun : run environment arguments = .ok (runWith environment options) := by
    rw [run, hoptions]
    rfl
  rw [hrun]
  simp only [runWith, hlisting, hconnect]

/-! ## Writes that succeed -/

theorem Debugger.session_answer (debugger : Debugger) (line : String) :
    (debugger.answer line).2.session =
      (debugger.session.run (debugger.lineRequest? line).toList).2 := by
  rw [answer_after]
  cases debugger.lineRequest? line <;> rfl

/-- The writes of lines are those of the first one and, if another line is read, those of the lines
behind it. -/
theorem Debugger.sends_requests_cons {debugger : Debugger} {line : String} {later : List String}
    (h : debugger.session.Sends (debugger.requests (line :: later))) :
    debugger.session.Sends (debugger.lineRequest? line).toList ∧
      ((debugger.answer line).1.goesOn = true →
        (debugger.answer line).2.session.Sends ((debugger.answer line).2.requests later)) := by
  rw [requests_cons, Session.sends_append, ← session_answer] at h
  refine ⟨h.1, ?_⟩
  intro hgoes
  simpa only [hgoes, if_true] using h.2

theorem WritesSucceed.sends_query (h : WritesSucceed listing stream lines) :
    (Session.connect stream).2.Sends [.control .query] := by
  have hsends := h.sends
  rw [calls, ← List.singleton_append, Session.sends_append] at hsends
  exact hsends.1

theorem WritesSucceed.sends_requests (h : WritesSucceed listing stream lines)
    (hgoes : (opening listing stream).1.goesOn = true) :
    (opening listing stream).2.session.Sends ((opening listing stream).2.requests lines) := by
  have hsends := h.sends
  rw [calls, hgoes, if_pos rfl, ← List.singleton_append, Session.sends_append] at hsends
  have hsession : (opening listing stream).2.session =
      ((Session.connect stream).2.run [.control .query]).2 := by
    rw [opening_eq]
    rfl
  rw [hsession]
  exact hsends.2

/-! ## The state at a line -/

/-- At every line the debugger is where the requests before it have led it. -/
theorem tracks_answeredRounds {index : Nat} {round : Round}
    (h : (answeredRounds listing stream lines)[index]? = some round) :
    ∃ line, lines[index]? = some line ∧ round.before.answer line = (round.turn, round.after) ∧
      Tracks (Session.connect stream).2 listing (earlierCalls listing stream lines index)
        round.before := by
  have hfirst : Tracks (Session.connect stream).2 listing [.control .query]
      (opening listing stream).2 := by
    have hopened : Tracks (Session.connect stream).2 listing []
        { session := (Session.connect stream).2, listing } := ⟨rfl, rfl, rfl⟩
    rw [opening_eq]
    exact hopened.afterRequest (.control .query)
  unfold answeredRounds at h
  split at h
  · obtain ⟨line, hline, hanswer, htracks, -⟩ := hfirst.round h
    exact ⟨line, hline, hanswer, htracks⟩
  · simp at h

end RemoteDebugger.Prompt
