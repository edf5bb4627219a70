import RemoteDebugger.Proofs.Prompt.Calls
import RemoteDebugger.Proofs.Prompt.Grammar
import RemoteDebugger.Proofs.Session.Transcript

/-!
# The traffic of a run

The target finds in all that a run writes the query of its state and then one request for each line
that needs one, in order.  `Command.requestText?` says which lines do and what their requests read;
all other lines leave the debugger, its session and its stream as they were.
-/

namespace RemoteDebugger.Prompt

open RemoteDebugger.Target RemoteDebugger.Wire RemoteDebugger.Text
open Debugger (readLine)

/-! ## The request of a command -/

/-- An address or a length as it stands in a request. -/
def wordText (word : UInt16) : String :=
  String.ofList (Hex.fixed .upper 4 word.toNat)

/-- The text of the request that a command makes.  Only `list` depends on what the debugger has: it
asks for the registers if it has no target, with a listing loaded and no program counter known. -/
def Command.requestText? (loaded known : Bool) : Command → Option String
  | .halt => some "t"
  | .step => some "s"
  | .resume => some "c"
  | .reset => some "r"
  | .set address value =>
      some ("M" ++ wordText address ++ ",0001:" ++ String.ofList (Hex.byte .lower value))
  | .examine address length => some ("m" ++ wordText address ++ "," ++ wordText length)
  | .registers => some "g"
  | .peripherals => some "qPeripherals"
  | .list none => if loaded && !known then some "g" else none
  | .list (some _) | .help | .breakpoint | .symbol _ | .quit => none

/-- The text of the request that a line makes. -/
def Debugger.lineText? (debugger : Debugger) (line : String) : Option String :=
  match readLine line with
  | .ok (some command) =>
      command.requestText? debugger.listing.isSome debugger.lastPc.isSome
  | _ => none

/-- The texts of the requests made in rounds that answer lines. -/
def requestTexts (rounds : List Round) (lines : List String) : List String :=
  (rounds.zip lines).filterMap fun (round, line) => round.before.lineText? line

namespace Debugger

theorem text_request? (debugger : Debugger) (command : Command) :
    (debugger.request? command).map Request.text =
      command.requestText? debugger.listing.isSome debugger.lastPc.isSome := by
  cases command with
  | set address value =>
      have hlength : Hex.padded .upper 4 1 = "0001".toList := by decide
      simp only [request?, Command.requestText?, Option.map_some, Option.some.injEq]
      apply String.ext
      simp [Request.text, Request.name, Request.arguments, wordText, hlength, Hex.encode]
  | examine address length =>
      simp only [request?, Command.requestText?, Option.map_some, Option.some.injEq]
      apply String.ext
      simp [Request.text, Request.name, Request.arguments, wordText]
  | list target =>
      simp only [request?, listRequest?]
      cases debugger.listing <;> cases target <;> cases debugger.lastPc <;> rfl
  | _ => rfl

theorem text_lineRequest? (debugger : Debugger) (line : String) :
    (debugger.lineRequest? line).map Request.text = debugger.lineText? line := by
  unfold lineRequest? lineText?
  rcases readLine line with reason | _ | command
  · rfl
  · rfl
  · exact debugger.text_request? command

theorem lineText?_of_request {debugger : Debugger} {line : String} {request : Request}
    (h : debugger.lineRequest? line = some request) :
    debugger.lineText? line = some request.text := by
  rw [← text_lineRequest?, h]
  rfl

theorem lineText?_of_no_request {debugger : Debugger} {line : String}
    (h : debugger.lineRequest? line = none) : debugger.lineText? line = none := by
  rw [← text_lineRequest?, h]
  rfl

/-- A line that needs no request leaves the debugger as it was. -/
theorem answer_after_of_lineText? {debugger : Debugger} {line : String}
    (h : debugger.lineText? line = none) : (debugger.answer line).2 = debugger := by
  rw [← text_lineRequest?, Option.map_eq_none_iff] at h
  rw [answer_after, h]

theorem lineText?_of_examines {debugger : Debugger} {line : String} {address length : UInt16}
    (h : Examines address length (lineWords line)) :
    debugger.lineText? line = some ("m" ++ wordText address ++ "," ++ wordText length) := by
  have hline : readLine line = .ok (some (.examine address length)) := by
    rw [readLine_eq]
    exact ofWords_eq_examine_iff.mpr h
  simp only [lineText?, hline, Command.requestText?]

theorem Turn.isAbandoned_of_goesOn {quits : Bool} {outcome : Outcome Error String}
    (h : (Turn.ofOutcome quits outcome).goesOn = true) : outcome.isAbandoned = false := by
  cases outcome with
  | abandoned => cases h
  | _ => rfl

/-- Another line is only read behind a request that was not abandoned, so that none is pending. -/
theorem pending_afterRequest {debugger : Debugger} {request : Request}
    {describe : request.Reply → String} (hpending : debugger.session.pending = none)
    (hgoes : (Turn.ofOutcome false
      ((debugger.session.perform request).1.map describe)).goesOn = true) :
    (debugger.afterRequest request).session.pending = none := by
  have hended : (debugger.session.perform request).1.isAbandoned = false := by
    simpa using Turn.isAbandoned_of_goesOn hgoes
  change (debugger.session.perform request).2.pending = none
  rw [Session.pending_perform, hended, hpending]
  rfl

theorem pending_answer {debugger : Debugger} {line : String}
    (hpending : debugger.session.pending = none)
    (hgoes : (debugger.answer line).1.goesOn = true) :
    (debugger.answer line).2.session.pending = none := by
  rw [answer_after]
  cases hrequest : debugger.lineRequest? line with
  | none => exact hpending
  | some request =>
      obtain ⟨describe, hanswer⟩ := exists_answer_of_request hrequest
      rw [hanswer] at hgoes
      exact pending_afterRequest hpending hgoes

end Debugger

/-! ## Messages -/

/-- A line writes the request that it needs, and behind it only what opens no frame. -/
theorem exists_messages_answer {debugger : Debugger} {line : String}
    (hpending : debugger.session.pending = none)
    (hsends : debugger.session.Sends (debugger.lineRequest? line).toList) :
    ∃ messages : List (Bytes × Bytes),
      messages.map Prod.fst = (debugger.lineText? line).toList.map encodeUtf8 ∧
        (∀ message ∈ messages, endMark ∉ message.1 ∧ startMark ∉ message.2) ∧
        (debugger.answer line).2.stream.writtenSince debugger.stream = interleaved messages := by
  cases hrequest : debugger.lineRequest? line with
  | none =>
      have htext := Debugger.lineText?_of_no_request hrequest
      refine ⟨[], by simp [htext], by simp, ?_⟩
      rw [Debugger.answer_after_of_lineText? htext]
      simp [Stream.writtenSince, interleaved]
  | some request =>
      have hsize := Debugger.oversize?_of_lineRequest? hrequest
      rw [hrequest] at hsends
      obtain ⟨behind, hbehind, hextends⟩ := Session.exists_extends_perform hpending hsize hsends
      refine ⟨[(request.payload, behind)], ?_, ?_, ?_⟩
      · rw [Debugger.lineText?_of_request hrequest]
        rfl
      · intro message hmessage
        obtain rfl := List.mem_singleton.mp hmessage
        exact ⟨request.endMark_not_mem_payload, hbehind⟩
      · have hwritten := hextends.writtenSince_eq
        rw [Debugger.answer_after, hrequest]
        simpa [interleaved] using! hwritten

theorem requestTexts_cons (round : Round) (rounds : List Round) (line : String)
    (lines : List String) :
    requestTexts (round :: rounds) (line :: lines) =
      (round.before.lineText? line).toList ++ requestTexts rounds lines := by
  cases htext : round.before.lineText? line <;> simp [requestTexts, htext]

/-- The rounds of a run write the requests of their lines, and between them only what opens no
frame. -/
theorem exists_messages_rounds {debugger : Debugger} {lines : List String}
    (hpending : debugger.session.pending = none)
    (hsends : debugger.session.Sends (debugger.requests lines)) :
    ∃ messages : List (Bytes × Bytes),
      messages.map Prod.fst = (requestTexts (rounds debugger lines) lines).map encodeUtf8 ∧
        (∀ message ∈ messages, endMark ∉ message.1 ∧ startMark ∉ message.2) ∧
        ((rounds debugger lines).map Round.step).flatMap Step.written = interleaved messages := by
  induction lines generalizing debugger with
  | nil => exact ⟨[], rfl, by simp, rfl⟩
  | cons line later ih =>
      obtain ⟨hfirst, hmore⟩ := Debugger.sends_requests_cons hsends
      obtain ⟨first, hpayloads, hframes, hwritten⟩ := exists_messages_answer hpending hfirst
      rw [rounds_cons, requestTexts_cons]
      cases hgoes : (debugger.answer line).1.goesOn with
      | false =>
          refine ⟨first, ?_, hframes, ?_⟩
          · simpa [requestTexts] using hpayloads
          · simpa [Round.step] using hwritten
      | true =>
          obtain ⟨messages, hlater, hothers, hrest⟩ :=
            ih (Debugger.pending_answer hpending hgoes) (hmore hgoes)
          refine ⟨first ++ messages, ?_, ?_, ?_⟩
          · rw [if_pos rfl, List.map_append, List.map_append, hpayloads, hlater]
          · exact List.forall_mem_append.mpr ⟨hframes, hothers⟩
          · rw [if_pos rfl, List.map_cons, List.flatMap_cons, hrest, interleaved_append, Round.step,
              hwritten]

/-! ## Whole runs -/

section Runs

variable {listing : Option Listing.Document} {stream : Stream} {lines : List String}

/-- Up to the first prompt a run writes an acknowledgement and the query of the state, and behind
it only what opens no frame. -/
theorem exists_written_opening (hwrites : WritesSucceed listing stream lines) :
    ∃ behind, startMark ∉ behind ∧
      (opening listing stream).2.stream.writtenSince stream =
        [accepted] ++ (encode (encodeUtf8 "?") ++ behind) := by
  obtain ⟨behind, hbehind, hextends⟩ :=
    Session.exists_extends_perform rfl rfl hwrites.sends_query
  refine ⟨behind, hbehind, ?_⟩
  rw [opening_eq]
  exact (hextends.trans (Session.extends_of_connect hwrites.opens)).writtenSince_eq

theorem exists_messages_answeredRounds (hwrites : WritesSucceed listing stream lines) :
    ∃ messages : List (Bytes × Bytes),
      messages.map Prod.fst =
          (requestTexts (answeredRounds listing stream lines) lines).map encodeUtf8 ∧
        (∀ message ∈ messages, endMark ∉ message.1 ∧ startMark ∉ message.2) ∧
        ((answeredRounds listing stream lines).map Round.step).flatMap Step.written =
          interleaved messages := by
  rw [answeredRounds]
  cases hgoes : (opening listing stream).1.goesOn with
  | false => exact ⟨[], rfl, by simp, rfl⟩
  | true =>
      have hpending : (opening listing stream).2.session.pending = none := by
        rw [opening, Debugger.queryState_eq] at hgoes ⊢
        exact Debugger.pending_afterRequest rfl hgoes
      rw [if_pos rfl]
      exact exists_messages_rounds hpending (hwrites.sends_requests hgoes)

/-- Where every write of a run succeeds, all that it writes is, for the target, the query of its
state and one intact frame for each line that needs a request, in order.  A line that needs none
leaves the debugger and its stream as they were; whether `list` needs one depends on the calls
before it, and memory is read as the words of a line ask for it, however they are spelled. -/
theorem run_traffic {environment : Environment} {arguments : List String} {options : Options}
    (hoptions : Options.parse arguments = .ok options)
    (hlisting : loadOptional environment.file? options = .ok listing)
    (hconnect : environment.connect options.address options.port = .ok stream)
    (hwrites : WritesSucceed listing stream environment.lines) :
    let made := answeredRounds listing stream environment.lines
    ∃ report,
      let found := drain (report.steps.flatMap Step.written)
      run environment arguments = .ok report ∧
      report.steps.tail = made.map Round.step ∧
      contents found.1 =
        ("?" :: requestTexts made environment.lines).map (fun text => (encodeUtf8 text, true)) ∧
      startMark ∉ found.2 ∧
      ∀ (index : Nat) (round : Round), made[index]? = some round →
        ∃ line, environment.lines[index]? = some line ∧
          round.before.answer line = (round.turn, round.after) ∧
          round.before.listing = listing ∧
          round.before.lastPc = latestAddress? ((Session.connect stream).2.run
            (earlierCalls listing stream environment.lines index)).1 ∧
          (round.before.lineText? line = none →
            round.after = round.before ∧ round.step.written = []) ∧
          ∀ address length, Examines address length (lineWords line) →
            round.before.lineText? line =
              some ("m" ++ wordText address ++ "," ++ wordText length) := by
  intro made
  have hrun := run_eq hoptions hlisting hconnect
  rw [debug_eq hwrites.opens] at hrun
  refine ⟨_, hrun, rfl, and_assoc.mp ⟨?_, ?_⟩⟩
  · obtain ⟨behind, hbehind, hquery⟩ := exists_written_opening hwrites
    obtain ⟨messages, hpayloads, hframes, hwritten⟩ := exists_messages_answeredRounds hwrites
    have hall : ((⟨(opening listing stream).1.shown,
          (opening listing stream).2.stream.writtenSince stream⟩ : Step) ::
        made.map Round.step).flatMap Step.written =
          [accepted] ++ interleaved ((encodeUtf8 "?", behind) :: messages) := by
      rw [List.flatMap_cons, hwritten, hquery]
      simp [interleaved]
    have hquestion : endMark ∉ encodeUtf8 "?" := by decide
    have hmessages : ∀ message ∈ (encodeUtf8 "?", behind) :: messages,
        endMark ∉ message.1 ∧ startMark ∉ message.2 :=
      List.forall_mem_cons.mpr ⟨⟨hquestion, hbehind⟩, hframes⟩
    have hopening : startMark ∉ [accepted] := by decide
    obtain ⟨hcontents, hrest⟩ := drain_interleaved hopening hmessages
    rw [← hall] at hcontents hrest
    refine ⟨hcontents.trans ?_, hrest⟩
    calc ((encodeUtf8 "?", behind) :: messages).map (fun message => (message.1, true)) =
          (encodeUtf8 "?" :: messages.map Prod.fst).map (·, true) := by
          rw [List.map_cons, List.map_cons, List.map_map]
          rfl
      _ = ("?" :: requestTexts made environment.lines).map fun text => (encodeUtf8 text, true) := by
          rw [hpayloads, List.map_cons, List.map_cons, List.map_map]
          rfl
  · intro index round hround
    obtain ⟨line, hline, hanswer, htracks⟩ := tracks_answeredRounds hround
    refine ⟨line, hline, hanswer, htracks.listing_eq, htracks.lastPc_eq, ?_, ?_⟩
    · intro hnothing
      have hafter : round.after = round.before := by
        have hsame := Debugger.answer_after_of_lineText? hnothing
        rwa [hanswer] at hsame
      refine ⟨hafter, ?_⟩
      simp [Round.step, hafter, Stream.writtenSince]
    · intro address length hexamines
      exact Debugger.lineText?_of_examines hexamines

end Runs

/-- A target that tells no program counter when it is first asked. -/
def reticent : Stream where
  events := ["T05", "01020304800000", "T05048003", "EA4C", "OK"].map fun text =>
    .data (encode (encodeUtf8 text))

def reticentEnvironment : Environment where
  file? path := if path = "main.lst" then some [] else none
  connect _ _ := .ok reticent
  lines := ["l", "", "s", "l", "x/2 0x80FF", "set 512 0xA9", "go", "r", "q", "h"]

theorem traffic_reticent :
    Options.parse ["-l", "main.lst"] = .ok { listing := some "main.lst" } ∧
      loadOptional reticentEnvironment.file? { listing := some "main.lst" } = .ok (some {}) ∧
      WritesSucceed (some {}) reticent reticentEnvironment.lines ∧
      ∃ report, run reticentEnvironment ["-l", "main.lst"] = .ok report ∧
        contents (drain (report.steps.flatMap Step.written)).1 =
          ["?", "g", "s", "m80FF,0002", "M0200,0001:a9", "r"].map
            fun text => (encodeUtf8 text, true) := by
  have hoptions : Options.parse ["-l", "main.lst"] = .ok { listing := some "main.lst" } := by
    decide +kernel
  have hlisting : loadOptional reticentEnvironment.file? { listing := some "main.lst" } =
      .ok (some {}) := rfl
  have hwrites : WritesSucceed (some {}) reticent reticentEnvironment.lines := by
    constructor
    · decide +kernel
    · decide +kernel
  obtain ⟨report, hrun, -, hcontents, -⟩ := run_traffic hoptions hlisting rfl hwrites
  refine ⟨hoptions, hlisting, hwrites, report, hrun, hcontents.trans ?_⟩
  have htexts : requestTexts (answeredRounds (some {}) reticent reticentEnvironment.lines)
      reticentEnvironment.lines = ["g", "s", "m80FF,0002", "M0200,0001:a9", "r"] := by
    decide +kernel
  rw [htexts]

end RemoteDebugger.Prompt
