import RemoteDebugger.Proofs.Prompt.Execution
import RemoteDebugger.Proofs.Session.Ready

/-!
# The dialogue at the prompt

`Answers` lists what can come of one line of input and `Dialogue` what can come of all of them;
`Startup` is what precedes the first prompt.  On a stream that is always ready every run of the
program is one of these, and no other one has the same stream and lines.  It therefore ends with its
input, at `quit`, or at a fault of the connection, and is never held up.
-/

namespace RemoteDebugger.Prompt

open RemoteDebugger.Target RemoteDebugger.Wire
open Debugger (readLine)

/-! ## One line -/

/-- How the debugger answers a line, and its state behind that.  The errors that a command meets
tell of the content of a reply or of the connection, and only the latter end the run. -/
inductive Answers (debugger : Debugger) (line : String) : Debugger.Turn → Debugger → Prop
  | blank (hline : readLine line = .ok none) : Answers debugger line (.proceed "") debugger
  | rejected {reason : CommandError} (hline : readLine line = .error reason) :
      Answers debugger line (.proceed (reason.message ++ "\n")) debugger
  | quit (hline : readLine line = .ok (some .quit)) :
      Answers debugger line (.quit "Quit\n") debugger
  | done {command : Command} {text : String} {after : Debugger}
      (hline : readLine line = .ok (some command)) (hquit : command ≠ .quit)
      (hcall : debugger.execute command = (.ok text, after)) :
      Answers debugger line (.proceed text) after
  | refused {command : Command} {error : Error} {after : Debugger}
      (hline : readLine line = .ok (some command))
      (hcall : debugger.execute command = (.error error, after)) (hreply : error.isReply = true) :
      Answers debugger line (.proceed ("Error: " ++ error.message ++ "\n")) after
  | lost {command : Command} {fault : Fault} {after : Debugger}
      (hline : readLine line = .ok (some command))
      (hcall : debugger.execute command = (.error (.connection fault), after)) :
      Answers debugger line (.failed (.connection fault)) after

/-- What a command comes to in a session that is never held up. -/
theorem Debugger.execute_cases {debugger : Debugger} (hready : debugger.session.Ready)
    (command : Command) :
    ∃ outcome after, debugger.execute command = (outcome, after) ∧ after.session.Ready ∧
      ((∃ text, outcome = .ok text) ∨ (∃ error, outcome = .error error ∧ error.isReply = true) ∨
        ∃ fault, outcome = .error (.connection fault)) := by
  cases hrequest : debugger.request? command with
  | none =>
      obtain ⟨text, hexecute⟩ := execute_of_no_request hrequest
      exact ⟨_, _, hexecute, hready, Or.inl ⟨text, rfl⟩⟩
  | some request =>
      obtain ⟨describe, hexecute⟩ := execute_of_request hrequest
      obtain ⟨hended, hafter⟩ := Session.ready_perform hready request
      refine ⟨_, _, hexecute, hafter, ?_⟩
      cases houtcome : (debugger.session.perform request).1 with
      | ok reply => exact Or.inl ⟨describe reply, rfl⟩
      | abandoned =>
          rw [houtcome] at hended
          cases hended
      | error error =>
          have hsize := oversize?_of_request? hrequest
          rcases Session.error_of_perform hready.pending hsize houtcome with ⟨fault, rfl⟩ | hreply
          · exact Or.inr (Or.inr ⟨fault, rfl⟩)
          · exact Or.inr (Or.inl ⟨error, rfl, hreply⟩)

/-- Every line is answered in one of these ways, and leaves no request pending. -/
theorem answers_answer {debugger : Debugger} (hready : debugger.session.Ready) (line : String) :
    Answers debugger line (debugger.answer line).1 (debugger.answer line).2 ∧
      (debugger.answer line).2.session.Ready := by
  rcases hline : readLine line with reason | _ | command
  · rw [debugger.answer_of_error hline]
    exact ⟨.rejected hline, hready⟩
  · rw [debugger.answer_of_blank hline]
    exact ⟨.blank hline, hready⟩
  · rw [debugger.answer_of_command hline]
    by_cases hquit : command = .quit
    · subst hquit
      exact ⟨.quit hline, hready⟩
    · have hlast : (command == .quit) = false := by simpa using hquit
      obtain ⟨outcome, after, hcall, hafter, hcases⟩ := debugger.execute_cases hready command
      rw [hcall, hlast]
      refine ⟨?_, hafter⟩
      rcases hcases with ⟨text, rfl⟩ | ⟨error, rfl, hreply⟩ | ⟨fault, rfl⟩
      · exact .done hline hquit hcall
      · simp only [Debugger.Turn.ofOutcome, Error.isFatal_of_isReply hreply]
        exact .refused hline hcall hreply
      · exact .lost hline hcall

/-- A line has one answer only. -/
theorem Answers.eq_answer {debugger after : Debugger} {line : String} {turn : Debugger.Turn}
    (h : Answers debugger line turn after) : debugger.answer line = (turn, after) := by
  cases h with
  | blank hline => exact debugger.answer_of_blank hline
  | rejected hline => exact debugger.answer_of_error hline
  | quit hline => exact debugger.answer_of_command hline
  | @done command text _ hline hquit hcall =>
      have hlast : (command == .quit) = false := by simpa using hquit
      rw [debugger.answer_of_command hline, hcall, hlast]
      rfl
  | refused hline hcall hreply =>
      rw [debugger.answer_of_command hline, hcall]
      simp only [Debugger.Turn.ofOutcome, Error.isFatal_of_isReply hreply]
      rfl
  | lost hline hcall =>
      rw [debugger.answer_of_command hline, hcall]
      rfl

/-! ## All lines -/

/-- The steps of a run from one prompt on, and how it ends.  At every prompt no request is pending;
each line is answered before the next one is read, and none is read behind a line that ends the
run. -/
inductive Dialogue : Debugger → List String → List Step → Ending → Prop
  | endOfInput {debugger : Debugger} (hidle : debugger.session.pending = none) :
      Dialogue debugger [] [] .finished
  | proceeds {debugger after : Debugger} {line output : String} {later : List String}
      {steps : List Step} {ending : Ending} (hidle : debugger.session.pending = none)
      (hanswer : Answers debugger line (.proceed output) after)
      (hlater : Dialogue after later steps ending) :
      Dialogue debugger (line :: later)
        (⟨output ++ promptSign, after.stream.writtenSince debugger.stream⟩ :: steps) ending
  | quits {debugger after : Debugger} {line output : String} {later : List String}
      (hidle : debugger.session.pending = none)
      (hanswer : Answers debugger line (.quit output) after) :
      Dialogue debugger (line :: later)
        [⟨output, after.stream.writtenSince debugger.stream⟩] .finished
  | fails {debugger after : Debugger} {line : String} {error : Error} {later : List String}
      (hidle : debugger.session.pending = none)
      (hanswer : Answers debugger line (.failed error) after) :
      Dialogue debugger (line :: later)
        [⟨"", after.stream.writtenSince debugger.stream⟩] (.failed (.command error))

/-- The round of a line that is followed by another decides nothing of how the run ends. -/
theorem endingAfter_cons {round : Round} (h : round.turn.goesOn = true) (later : List Round) :
    endingAfter (round :: later) = endingAfter later := by
  cases later with
  | nil =>
      rcases round with ⟨before, turn, after⟩
      cases turn with
      | proceed output => rfl
      | _ => cases h
  | cons next rest => simp [endingAfter]

theorem dialogue_rounds {debugger : Debugger} (hready : debugger.session.Ready)
    (lines : List String) :
    Dialogue debugger lines ((rounds debugger lines).map Round.step)
      (endingAfter (rounds debugger lines)) := by
  induction lines generalizing debugger with
  | nil => exact .endOfInput hready.pending
  | cons line later ih =>
      obtain ⟨hanswer, hafter⟩ := answers_answer hready line
      rw [rounds_cons]
      generalize debugger.answer line = answered at hanswer hafter ⊢
      obtain ⟨turn, after⟩ := answered
      cases turn with
      | proceed output =>
          simp only [Debugger.Turn.goesOn, if_true, List.map_cons]
          rw [endingAfter_cons rfl]
          exact .proceeds hready.pending hanswer (ih hafter)
      | quit output => exact .quits hready.pending hanswer
      | failed error => exact .fails hready.pending hanswer
      | abandoned => cases hanswer

/-- The lines of a dialogue determine its steps and how it ends. -/
theorem Dialogue.eq_rounds {debugger : Debugger} {lines : List String} {steps : List Step}
    {ending : Ending} (h : Dialogue debugger lines steps ending) :
    (rounds debugger lines).map Round.step = steps ∧
      endingAfter (rounds debugger lines) = ending := by
  induction h with
  | endOfInput => exact ⟨rfl, rfl⟩
  | @proceeds debugger after line output later steps ending _ hanswer _ ih =>
      obtain ⟨hsteps, hending⟩ := ih
      rw [rounds_cons, hanswer.eq_answer]
      simp only [Debugger.Turn.goesOn, if_true, List.map_cons, hsteps]
      rw [endingAfter_cons rfl]
      exact ⟨rfl, hending⟩
  | quits _ hanswer =>
      rw [rounds_cons, hanswer.eq_answer]
      exact ⟨rfl, rfl⟩
  | fails _ hanswer =>
      rw [rounds_cons, hanswer.eq_answer]
      exact ⟨rfl, rfl⟩

/-! ## Before the first prompt -/

/-- The steps of a run over a stream, and how it ends: the session is opened and the target asked
for its state, and only a fault of the connection keeps the dialogue from following. -/
inductive Startup (listing : Option Listing.Document) (stream : Stream) (lines : List String) :
    List Step → Ending → Prop
  | handshakeFailed {fault : Fault} {session : Session}
      (hopen : Session.connect stream = (.error (.connection fault), session)) :
      Startup listing stream lines [⟨"", session.link.stream.writtenSince stream⟩]
        (.failed (.handshake (.connection fault)))
  | queryFailed {fault : Fault} {session after : Session}
      (hopen : Session.connect stream = (.ok (), session))
      (hquery : session.perform (.control .query) = (.error (.connection fault), after)) :
      Startup listing stream lines [⟨"", after.link.stream.writtenSince stream⟩]
        (.failed (.query (.connection fault)))
  | queryRefused {error : Error} {session after : Session} {steps : List Step} {ending : Ending}
      (hopen : Session.connect stream = (.ok (), session))
      (hquery : session.perform (.control .query) = (.error error, after))
      (hreply : error.isReply = true)
      (hlater : Dialogue { session := after, listing } lines steps ending) :
      Startup listing stream lines
        (⟨"Error: " ++ error.message ++ "\n" ++ promptSign,
          after.link.stream.writtenSince stream⟩ :: steps) ending
  | queried {status : StopStatus} {session after : Session} {steps : List Step} {ending : Ending}
      (hopen : Session.connect stream = (.ok (), session))
      (hquery : session.perform (.control .query) = (.ok status, after))
      (hlater : Dialogue { session := after, listing, lastPc := status.address } lines steps
        ending) :
      Startup listing stream lines
        (⟨({ session, listing } : Debugger).statusText status ++ promptSign,
          after.link.stream.writtenSince stream⟩ :: steps) ending

theorem startup_debug {stream : Stream} (hready : stream.Ready)
    (listing : Option Listing.Document) (lines : List String) :
    Startup listing stream lines (debug listing stream lines).1 (debug listing stream lines).2 := by
  obtain ⟨hended, hsession⟩ := Session.ready_connect hready
  rcases hopen : Session.connect stream with ⟨_ | error | _, session⟩
  · rw [hopen] at hsession
    obtain ⟨hanswered, hafter⟩ := Session.ready_perform hsession (.control .query)
    rcases hquery : session.perform (.control .query) with ⟨status | error | _, after⟩
    · rw [hquery] at hafter
      simp only [debug, hopen, Debugger.queryState_of_ok hquery]
      exact .queried hopen hquery (dialogue_rounds hafter lines)
    · rw [hquery] at hafter
      simp only [debug, hopen, Debugger.queryState_of_error hquery]
      rcases Session.error_of_perform hsession.pending rfl (by rw [hquery]) with
        ⟨fault, rfl⟩ | hreply
      · exact .queryFailed hopen hquery
      · simp only [Debugger.Turn.ofOutcome, Error.isFatal_of_isReply hreply]
        exact .queryRefused hopen hquery hreply (dialogue_rounds hafter lines)
    · rw [hquery] at hanswered
      cases hanswered
  · obtain ⟨fault, rfl⟩ := Session.error_of_connect (by rw [hopen])
    simp only [debug, hopen]
    exact .handshakeFailed hopen
  · rw [hopen] at hended
    cases hended

/-- A stream and the lines of input determine the steps of a run and how it ends. -/
theorem Startup.eq_debug {listing : Option Listing.Document} {stream : Stream}
    {lines : List String} {steps : List Step} {ending : Ending}
    (h : Startup listing stream lines steps ending) :
    debug listing stream lines = (steps, ending) := by
  cases h with
  | handshakeFailed hopen => simp only [debug, hopen]
  | queryFailed hopen hquery =>
      simp only [debug, hopen, Debugger.queryState_of_error hquery]
      rfl
  | queryRefused hopen hquery hreply hlater =>
      obtain ⟨rfl, rfl⟩ := hlater.eq_rounds
      simp only [debug, hopen, Debugger.queryState_of_error hquery, Debugger.Turn.ofOutcome,
        Error.isFatal_of_isReply hreply]
      rfl
  | queried hopen hquery hlater =>
      obtain ⟨rfl, rfl⟩ := hlater.eq_rounds
      simp only [debug, hopen, Debugger.queryState_of_ok hquery]
      rfl

/-! ## Whole runs -/

/-- A dialogue ends well unless a command meets a fault of the connection. -/
theorem Dialogue.ending_cases {debugger : Debugger} {lines : List String} {steps : List Step}
    {ending : Ending} (h : Dialogue debugger lines steps ending) :
    ending = .finished ∨ ∃ fault, ending = .failed (.command (.connection fault)) := by
  induction h with
  | endOfInput => exact Or.inl rfl
  | proceeds _ _ _ ih => exact ih
  | quits => exact Or.inl rfl
  | fails _ hanswer =>
      cases hanswer with
      | @lost command fault after hline hcall => exact Or.inr ⟨fault, rfl⟩

theorem Startup.ending_cases {listing : Option Listing.Document} {stream : Stream}
    {lines : List String} {steps : List Step} {ending : Ending}
    (h : Startup listing stream lines steps ending) :
    ending = .finished ∨ ∃ fault,
      ending = .failed (.handshake (.connection fault)) ∨
        ending = .failed (.query (.connection fault)) ∨
        ending = .failed (.command (.connection fault)) := by
  cases h with
  | @handshakeFailed fault => exact Or.inr ⟨fault, Or.inl rfl⟩
  | @queryFailed fault => exact Or.inr ⟨fault, Or.inr (Or.inl rfl)⟩
  | queryRefused _ _ _ hlater | queried _ _ hlater =>
      rcases hlater.ending_cases with hfinished | ⟨fault, hfailed⟩
      · exact Or.inl hfinished
      · exact Or.inr ⟨fault, Or.inr (Or.inr hfailed)⟩

/-- The wording of a fault of the connection: the error and, behind it, its cause. -/
def faultChain (fault : Fault) : List String :=
  ["connection error: " ++ fault.message, fault.message]

/-- A run that has come to its target goes through the startup and the dialogue, which leave it no
choice.  It ends well or with a fault of the connection, whose context says where it was met, and is
never held up. -/
theorem run_startup {environment : Environment} {arguments : List String} {options : Options}
    {listing : Option Listing.Document} {stream : Stream}
    (hoptions : Options.parse arguments = .ok options)
    (hlisting : loadOptional environment.file? options = .ok listing)
    (hconnect : environment.connect options.address options.port = .ok stream)
    (hready : stream.Ready) :
    ∃ steps ending,
      run environment arguments =
        .ok {
          logFilter := options.logFilter
          connectedTo := some (endpoint options.address options.port)
          steps, ending } ∧
      Startup listing stream environment.lines steps ending ∧
      (∀ others other, Startup listing stream environment.lines others other →
        others = steps ∧ other = ending) ∧
      ending ≠ .abandoned ∧
      ∀ failure, ending = .failed failure → ∃ fault,
        (failure = .handshake (.connection fault) ∧ failure.chain = faultChain fault) ∨
        (failure = .query (.connection fault) ∧
          failure.chain = "querying target state" :: faultChain fault) ∨
        (failure = .command (.connection fault) ∧
          failure.chain = "debug session ended" :: faultChain fault) := by
  have hrun : run environment arguments = .ok (runWith environment options) := by
    rw [run, hoptions]
    rfl
  have hstartup := startup_debug hready listing environment.lines
  refine ⟨_, _, ?_, hstartup, ?_, ?_⟩
  · rw [hrun]
    simp only [runWith, hlisting, hconnect]
  · intro others other hother
    rw [hother.eq_debug]
    exact ⟨rfl, rfl⟩
  · rcases hstartup.ending_cases with hended | ⟨fault, hended | hended | hended⟩
    · rw [hended]
      exact ⟨by simp, by rintro failure ⟨⟩⟩
    · rw [hended]
      refine ⟨by simp, ?_⟩
      rintro failure ⟨⟩
      exact ⟨fault, Or.inl ⟨rfl, rfl⟩⟩
    · rw [hended]
      refine ⟨by simp, ?_⟩
      rintro failure ⟨⟩
      exact ⟨fault, Or.inr (Or.inl ⟨rfl, rfl⟩)⟩
    · rw [hended]
      refine ⟨by simp, ?_⟩
      rintro failure ⟨⟩
      exact ⟨fault, Or.inr (Or.inr ⟨rfl, rfl⟩)⟩

/-- A target that stops at `8000`, refuses to step, and then closes the connection. -/
def reluctant : Stream where
  events := [.data (encode (Text.encodeUtf8 "T05048000")), .data (encode (Text.encodeUtf8 "E01"))]

def reluctantEnvironment : Environment where
  file? _ := none
  connect _ _ := .ok reluctant
  lines := ["go", "s", "i r", "q"]

theorem startup_reluctant :
    Options.parse [] = .ok {} ∧ loadOptional reluctantEnvironment.file? {} = .ok none ∧
      reluctant.Ready ∧
      ∃ steps,
        steps.map Step.output =
          ["Stopped (signal 0x05) at 0x8000\n>", "Unknown command\n>",
            "Error: target error: 01\n>", ""] ∧
        Startup none reluctant ["go", "s", "i r", "q"] steps
          (.failed (.command (.connection .closed))) := by
  have hoptions : Options.parse [] = .ok {} := rfl
  have hlisting : loadOptional reluctantEnvironment.file? {} = .ok none := rfl
  have hready : reluctant.Ready := ⟨rfl, by decide, by decide⟩
  obtain ⟨steps, ending, hrun, hstartup, -⟩ := run_startup hoptions hlisting rfl hready
  have hreport : (run reluctantEnvironment []).toOption.map
      (fun report => (report.steps.map Step.output, report.ending)) =
        some (["Stopped (signal 0x05) at 0x8000\n>", "Unknown command\n>",
          "Error: target error: 01\n>", ""], .failed (.command (.connection .closed))) := by
    decide +kernel
  rw [hrun] at hreport
  simp only [Except.toOption, Option.map_some, Option.some.injEq, Prod.mk.injEq] at hreport
  obtain ⟨houtput, rfl⟩ := hreport
  exact ⟨hoptions, hlisting, hready, steps, houtput, hstartup⟩

end RemoteDebugger.Prompt
