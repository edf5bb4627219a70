import RemoteDebugger.Proofs.Prompt.Calls
import RemoteDebugger.Proofs.Session.Foresight
import RemoteDebugger.Proofs.Target.Decoding

/-!
# Replies that are kept apart

A reply with data is shown and then forgotten.  Two runs whose targets send the same frames, but for
the payload of one that answers a request for data, therefore differ in nothing but what is shown
for that one line: the debuggers stay alike (`Debugger.Alike`), and what is found at the lines that
follow stays the same (`Debugger.Foresees`).
-/

namespace RemoteDebugger.Prompt

open RemoteDebugger.Target RemoteDebugger.Wire

/-- Whether a request moves data, from the target or to it.  Any other request changes what is known
of the state of the target. -/
def movesData : Request → Bool
  | .registers | .readMemory .. | .writeMemory .. | .peripherals => true
  | .control _ | .reset => false

namespace Debugger

/-! ## Debuggers that are alike -/

/-- Two debuggers know the same, and differ at most in their sessions. -/
structure Alike (one other : Debugger) : Prop where
  listing_eq : one.listing = other.listing
  lastPc_eq : one.lastPc = other.lastPc

section Alike

variable {one other : Debugger} {request : Request} {line : String}

theorem Alike.withSession_eq (h : one.Alike other) : one.withSession other.session = other := by
  obtain ⟨session, listing, lastPc⟩ := other
  obtain ⟨rfl, rfl⟩ := h
  rfl

theorem Alike.lineRequest?_eq (h : one.Alike other) (line : String) :
    other.lineRequest? line = one.lineRequest? line := by
  rw [← h.withSession_eq]
  simp only [lineRequest?, request?_withSession]

theorem Alike.answer_of_no_request (h : one.Alike other) (hrequest : one.lineRequest? line = none) :
    ∃ turn, one.answer line = (turn, one) ∧ other.answer line = (turn, other) := by
  obtain ⟨turn, hanswer⟩ := Debugger.answer_of_no_request hrequest
  refine ⟨turn, hanswer one.session, ?_⟩
  rw [← h.withSession_eq]
  exact hanswer other.session

theorem Alike.answer_of_request (h : one.Alike other)
    (hrequest : one.lineRequest? line = some request) :
    ∃ describe : request.Reply → String,
      one.answer line =
          (.ofOutcome false ((one.session.perform request).1.map describe),
            one.afterRequest request) ∧
        other.answer line =
          (.ofOutcome false ((other.session.perform request).1.map describe),
            other.afterRequest request) := by
  obtain ⟨describe, hanswer⟩ := Debugger.answer_of_request hrequest
  refine ⟨describe, hanswer one.session, ?_⟩
  have hother := hanswer other.session
  rwa [h.withSession_eq] at hother

theorem Alike.afterRequest (h : one.Alike other)
    (hsame : (one.session.perform request).1 = (other.session.perform request).1) :
    (one.afterRequest request).Alike (other.afterRequest request) := by
  obtain ⟨hlisting, hpc⟩ := h
  refine ⟨hlisting, ?_⟩
  simp only [Debugger.afterRequest, hsame, hpc]

/-- What a reply with data says is not kept. -/
theorem lastPc_afterRequest_of_movesData (debugger : Debugger) (h : movesData request = true) :
    (debugger.afterRequest request).lastPc = debugger.lastPc := by
  cases request with
  | control action => cases h
  | reset => cases h
  | _ => rfl

theorem Alike.afterRequest_of_movesData (h : one.Alike other) (hdata : movesData request = true) :
    (one.afterRequest request).Alike (other.afterRequest request) := by
  refine ⟨h.listing_eq, ?_⟩
  rw [one.lastPc_afterRequest_of_movesData hdata, other.lastPc_afterRequest_of_movesData hdata]
  exact h.lastPc_eq

end Alike

/-! ## Turns -/

/-- The turn that a reply, or the failure to get one, leads to. -/
def Turn.ofReply (request : Request) (describe : request.Reply → String)
    (outcome : Outcome Fault Bytes) : Turn :=
  .ofOutcome false (((outcome.mapError Error.connection).andThen request.decode).map describe)

/-- Another line is read only where there was a reply. -/
theorem Turn.exists_reply_of_goesOn {request : Request} {describe : request.Reply → String}
    {outcome : Outcome Fault Bytes} (h : (Turn.ofReply request describe outcome).goesOn = true) :
    ∃ payload, outcome = .ok payload := by
  cases outcome with
  | ok payload => exact ⟨payload, rfl⟩
  | error fault => cases h
  | abandoned => cases h

/-- Where there was a reply another line is read, whatever the reply says. -/
theorem Turn.exists_proceed (request : Request) (describe : request.Reply → String)
    (payload : Bytes) :
    ∃ output, Turn.ofReply request describe (.ok payload) = .proceed output := by
  cases hdecode : request.decode payload with
  | ok reply =>
      refine ⟨describe reply, ?_⟩
      simp [ofReply, Outcome.mapError, Outcome.andThen, hdecode, Outcome.ofExcept, Outcome.map,
        ofOutcome]
  | error error =>
      have hfatal := Error.isFatal_of_isReply (Request.isReply_of_decode hdecode)
      refine ⟨"Error: " ++ error.message ++ "\n", ?_⟩
      simp [ofReply, Outcome.mapError, Outcome.andThen, hdecode, Outcome.ofExcept, Outcome.map,
        ofOutcome, hfatal]

/-! ## One line -/

/-- Whether a line waits for a frame. -/
def awaits (debugger : Debugger) (line : String) : Bool :=
  (debugger.lineRequest? line).any Request.expectsReply

theorem toNat_awaits (debugger : Debugger) (line : String) :
    (debugger.awaits line).toNat =
      (debugger.lineRequest? line).toList.countP Request.expectsReply := by
  rw [awaits]
  cases debugger.lineRequest? line with
  | none => rfl
  | some request => cases h : request.expectsReply <;> simp [h]

/-- At these lines a debugger will find these frames and then this fault, and all that it writes for
them is written. -/
structure Foresees (debugger : Debugger) (lines : List String) (frames : List (Bytes × Bool))
    (stop : Option Fault) : Prop where
  expects : debugger.session.Expects frames stop
  sends : debugger.session.Sends (debugger.requests lines)

/-- The turn of a line, and what is written in it. -/
def lineTrace (debugger : Debugger) (line : String) : Turn × Bytes :=
  ((debugger.answer line).1, (debugger.answer line).2.stream.writtenSince debugger.stream)

theorem lineTrace_fst (debugger : Debugger) (line : String) :
    (debugger.lineTrace line).1 = (debugger.answer line).1 := by
  simp only [lineTrace]

/-- The frames fix what a line writes and what is found behind it. -/
theorem Foresees.answer {debugger : Debugger} {line : String} {later : List String}
    {frames : List (Bytes × Bool)} {stop : Option Fault}
    (h : debugger.Foresees (line :: later) frames stop) :
    let reception := reception (debugger.awaits line) stop frames
    (debugger.lineTrace line).2 =
        (debugger.lineRequest? line).toList.flatMap (encode ·.payload) ++ reception.written ∧
      ((debugger.answer line).1.goesOn = true →
        (debugger.answer line).2.Foresees later reception.left stop) := by
  obtain ⟨hexpects, hsends⟩ := h
  obtain ⟨hfirst, hmore⟩ := sends_requests_cons hsends
  simp only [awaits, lineTrace]
  cases hrequest : debugger.lineRequest? line with
  | none =>
      have hafter : (debugger.answer line).2 = debugger := by
        rw [answer_after, hrequest]
      rw [hafter] at hmore ⊢
      refine ⟨by simp [Stream.writtenSince, reception], ?_⟩
      intro hgoes
      exact ⟨hexpects, hmore hgoes⟩
  | some request =>
      rw [hrequest] at hfirst
      obtain ⟨describe, hanswer⟩ := exists_answer_of_request hrequest
      obtain ⟨houtcome, hextends, hleft⟩ :=
        Session.perform_of_expects hexpects (oversize?_of_lineRequest? hrequest) hfirst
      rw [hanswer, houtcome] at hmore ⊢
      refine ⟨?_, ?_⟩
      · have hwritten := hextends.writtenSince_eq
        simpa using! hwritten
      · intro hgoes
        obtain ⟨payload, hpayload⟩ := Turn.exists_reply_of_goesOn hgoes
        exact ⟨hleft payload hpayload, hmore hgoes⟩

theorem Foresees.perform {debugger : Debugger} {line : String} {later : List String}
    {frames : List (Bytes × Bool)} {stop : Option Fault} {request : Request}
    (h : debugger.Foresees (line :: later) frames stop)
    (hrequest : debugger.lineRequest? line = some request) :
    (debugger.session.perform request).1 =
      ((reception request.expectsReply stop frames).outcome.mapError .connection).andThen
        request.decode := by
  obtain ⟨hfirst, -⟩ := sends_requests_cons h.sends
  rw [hrequest] at hfirst
  exact (Session.perform_of_expects h.expects (oversize?_of_lineRequest? hrequest) hfirst).1

/-- A line that gets its reply is followed by another one, whatever the reply says. -/
theorem Foresees.answer_of_reply {debugger : Debugger} {line : String} {later : List String}
    {before after : List (Bytes × Bool)} {payload : Bytes} {stop : Option Fault}
    {request : Request}
    (h : debugger.Foresees (line :: later) (before ++ (payload, true) :: after) stop)
    (hfirst : before.countP (·.2) = 0) (hrequest : debugger.lineRequest? line = some request)
    (hexpects : request.expectsReply = true) :
    ∃ shown,
      debugger.lineTrace line = (.proceed shown,
          encode request.payload ++ (List.replicate before.length rejected ++ [accepted])) ∧
        (debugger.session.perform request).1 = .ofExcept (request.decode payload) ∧
        (debugger.answer line).2.Foresees later after stop := by
  have hawaits : debugger.awaits line = true := by
    rw [awaits, hrequest]
    exact hexpects
  have hreception : reception true stop (before ++ (payload, true) :: after) =
      ⟨.ok payload, List.replicate before.length rejected ++ [accepted], after⟩ :=
    received_of_rejected hfirst stop payload after
  obtain ⟨hwritten, hnext⟩ := h.answer
  rw [hawaits, hreception] at hwritten hnext
  have hreply := h.perform hrequest
  rw [hexpects, hreception] at hreply
  obtain ⟨describe, hanswer⟩ := exists_answer_of_request hrequest
  obtain ⟨shown, hshown⟩ := Turn.exists_proceed request describe payload
  have hturn : (debugger.answer line).1 = .proceed shown := by
    rw [hanswer, hreply]
    exact hshown
  refine ⟨shown, Prod.ext ?_ ?_, hreply, hnext (by rw [hturn]; rfl)⟩
  · rw [lineTrace_fst, hturn]
  · rw [hwritten, hrequest]
    simp

section Lines

variable {one other : Debugger} {line : String} {later : List String} {stop : Option Fault}
  {frames others : List (Bytes × Bool)}

theorem Alike.awaits_eq (h : one.Alike other) (line : String) :
    other.awaits line = one.awaits line := by
  rw [awaits, h.lineRequest?_eq, awaits]

/-- Debuggers that are alike answer a line alike where the same comes of waiting for its reply. -/
theorem Alike.answer (h : one.Alike other) (hone : one.Foresees (line :: later) frames stop)
    (hother : other.Foresees (line :: later) others stop)
    (houtcome : (reception (one.awaits line) stop frames).outcome =
      (reception (one.awaits line) stop others).outcome)
    (hwritten : (reception (one.awaits line) stop frames).written =
      (reception (one.awaits line) stop others).written) :
    one.lineTrace line = other.lineTrace line ∧
      (one.answer line).2.Alike (other.answer line).2 := by
  have hsecond : (one.lineTrace line).2 = (other.lineTrace line).2 := by
    rw [hone.answer.1, hother.answer.1, h.lineRequest?_eq, h.awaits_eq, hwritten]
  simp only [awaits] at houtcome
  cases hrequest : one.lineRequest? line with
  | none =>
      obtain ⟨turn, hanswer, hanswer'⟩ := h.answer_of_no_request hrequest
      refine ⟨Prod.ext ?_ hsecond, ?_⟩
      · simp only [lineTrace, hanswer, hanswer']
      · rw [hanswer, hanswer']
        exact h
  | some request =>
      rw [hrequest] at houtcome
      obtain ⟨describe, hanswer, hanswer'⟩ := h.answer_of_request hrequest
      have hsame : (one.session.perform request).1 = (other.session.perform request).1 := by
        rw [hone.perform hrequest, hother.perform ((h.lineRequest?_eq line).trans hrequest)]
        exact congrArg (fun outcome : Outcome Fault Bytes =>
          (outcome.mapError Error.connection).andThen request.decode) houtcome
      refine ⟨Prod.ext ?_ hsecond, ?_⟩
      · simp only [lineTrace, hanswer, hanswer', hsame]
      · rw [hanswer, hanswer']
        exact h.afterRequest hsame

/-- Debuggers that are alike answer a line alike where its reply is among the frames that they have
in common. -/
theorem Alike.answer_of_common {before : List (Bytes × Bool)} (h : one.Alike other)
    (hone : one.Foresees (line :: later) (before ++ frames) stop)
    (hother : other.Foresees (line :: later) (before ++ others) stop)
    (henough : one.awaits line = true → 0 < before.countP (·.2)) :
    one.lineTrace line = other.lineTrace line ∧
      (one.answer line).2.Alike (other.answer line).2 ∧
      ∃ left, left.countP (·.2) + (one.awaits line).toNat = before.countP (·.2) ∧
        ((one.answer line).1.goesOn = true →
          (one.answer line).2.Foresees later (left ++ frames) stop) ∧
        ((other.answer line).1.goesOn = true →
          (other.answer line).2.Foresees later (left ++ others) stop) := by
  obtain ⟨payload, written, left, hcount, hreception⟩ := reception_append henough stop
  obtain ⟨htrace, hafter⟩ := h.answer hone hother
    (by rw [hreception, hreception]) (by rw [hreception, hreception])
  have hnext := hone.answer.2
  have hnext' := hother.answer.2
  rw [h.awaits_eq] at hnext'
  rw [hreception] at hnext hnext'
  exact ⟨htrace, hafter, left, hcount, hnext, hnext'⟩

theorem expectsReply_of_movesData {request : Request} (h : movesData request = true) :
    request.expectsReply = true := by
  cases request with
  | reset => cases h
  | _ => rfl

/-- Debuggers that are alike read on and stay alike where their replies with data differ. -/
theorem Alike.answer_of_movesData {before after : List (Bytes × Bool)} {reply changed : Bytes}
    {request : Request} (h : one.Alike other)
    (hone : one.Foresees (line :: later) (before ++ (reply, true) :: after) stop)
    (hother : other.Foresees (line :: later) (before ++ (changed, true) :: after) stop)
    (hfirst : before.countP (·.2) = 0) (hrequest : one.lineRequest? line = some request)
    (hdata : movesData request = true) :
    ∃ shown different written,
      one.lineTrace line = (.proceed shown, written) ∧
        other.lineTrace line = (.proceed different, written) ∧
        (one.session.perform request).1 = .ofExcept (request.decode reply) ∧
        (one.answer line).2.Alike (other.answer line).2 ∧
        (one.answer line).2.Foresees later after stop ∧
        (other.answer line).2.Foresees later after stop := by
  have hexpects := expectsReply_of_movesData hdata
  obtain ⟨shown, htrace, hreply, hnext⟩ := hone.answer_of_reply hfirst hrequest hexpects
  obtain ⟨different, htrace', -, hnext'⟩ :=
    hother.answer_of_reply hfirst ((h.lineRequest?_eq line).trans hrequest) hexpects
  obtain ⟨describe, hanswer, hanswer'⟩ := h.answer_of_request hrequest
  refine ⟨shown, different, _, htrace, htrace', hreply, ?_, hnext, hnext'⟩
  rw [hanswer, hanswer']
  exact h.afterRequest_of_movesData hdata

end Lines

end Debugger

/-! ## All lines -/

/-- The turn of a round, and what is written in it. -/
def Round.trace (round : Round) : Debugger.Turn × Bytes :=
  (round.turn, round.step.written)

section Rounds

variable {one other : Debugger} {stop : Option Fault}

theorem trace_rounds_cons (debugger : Debugger) (line : String) (later : List String) :
    (rounds debugger (line :: later)).map Round.trace =
      debugger.lineTrace line ::
        if (debugger.answer line).1.goesOn then
          (rounds (debugger.answer line).2 later).map Round.trace else [] := by
  rw [rounds_cons, List.map_cons, Debugger.lineTrace]
  generalize debugger.answer line = answered
  cases answered.1.goesOn <;> rfl

/-- Debuggers that are alike and expect the same go through the same. -/
theorem trace_rounds_eq {frames : List (Bytes × Bool)} {lines : List String}
    (halike : one.Alike other) (hone : one.Foresees lines frames stop)
    (hother : other.Foresees lines frames stop) :
    (rounds one lines).map Round.trace = (rounds other lines).map Round.trace := by
  induction lines generalizing one other frames with
  | nil => rfl
  | cons line later ih =>
      obtain ⟨htrace, hafter⟩ := halike.answer hone hother rfl rfl
      have hnext := hother.answer.2
      rw [halike.awaits_eq] at hnext
      rw [trace_rounds_cons, trace_rounds_cons, htrace, ← one.lineTrace_fst, htrace,
        other.lineTrace_fst]
      by_cases hgoes : (other.answer line).1.goesOn = true
      · have hgoes' : (one.answer line).1.goesOn = true := by
          rw [← one.lineTrace_fst, htrace, other.lineTrace_fst]
          exact hgoes
        rw [if_pos hgoes, if_pos hgoes, ih hafter (hone.answer.2 hgoes') (hnext hgoes)]
      · rw [if_neg hgoes, if_neg hgoes]

/-- Debuggers that are alike go through the same but for what is shown for one line with data, if
the frames differ in the payload of its reply. -/
theorem exists_trace_rounds {lines : List String} {before after : List (Bytes × Bool)}
    {reply changed : Bytes} {index : Nat} {round : Round} {line : String} {request : Request}
    (halike : one.Alike other) (hone : one.Foresees lines (before ++ (reply, true) :: after) stop)
    (hother : other.Foresees lines (before ++ (changed, true) :: after) stop)
    (hround : (rounds one lines)[index]? = some round) (hline : lines[index]? = some line)
    (hrequest : round.before.lineRequest? line = some request) (hdata : movesData request = true)
    (hcount : before.countP (·.2) =
      (one.requests (lines.take index)).countP Request.expectsReply) :
    ∃ earlier shown different written later,
      earlier.length = index ∧
        (rounds one lines).map Round.trace = earlier ++ (.proceed shown, written) :: later ∧
        (rounds other lines).map Round.trace =
          earlier ++ (.proceed different, written) :: later ∧
        (round.before.session.perform request).1 = .ofExcept (request.decode reply) := by
  -- every line before takes its reply from the frames in common, which `hcount` keeps track of
  induction lines generalizing one other before index with
  | nil => simp at hline
  | cons first rest ih =>
      rw [rounds_cons] at hround
      cases index with
      | zero =>
          rw [List.getElem?_cons_zero, Option.some.injEq] at hround hline
          subst hround hline
          obtain ⟨shown, different, written, htrace, htrace', hreply, hafter, hnext, hnext'⟩ :=
            halike.answer_of_movesData hone hother hcount hrequest hdata
          refine ⟨[], shown, different, written,
            (rounds (one.answer first).2 rest).map Round.trace, rfl, ?_, ?_, hreply⟩
          · rw [trace_rounds_cons, ← one.lineTrace_fst, htrace]
            rfl
          · rw [trace_rounds_cons, ← other.lineTrace_fst, htrace',
              trace_rounds_eq hafter hnext hnext']
            rfl
      | succ index =>
          rw [List.getElem?_cons_succ] at hround hline
          by_cases hgoes : (one.answer first).1.goesOn = true
          · rw [if_pos hgoes] at hround
            rw [List.take_succ_cons, Debugger.requests_cons, if_pos hgoes, List.countP_append,
              ← one.toNat_awaits] at hcount
            have henough : one.awaits first = true → 0 < before.countP (·.2) := by
              intro hawaits
              rw [hcount, hawaits]
              exact Nat.add_pos_left Nat.one_pos _
            obtain ⟨htrace, hafter, left, hleft, hnext, hnext'⟩ :=
              halike.answer_of_common hone hother henough
            have hgoes' : (other.answer first).1.goesOn = true := by
              rw [← other.lineTrace_fst, ← htrace, one.lineTrace_fst]
              exact hgoes
            obtain ⟨earlier, shown, different, written, later, hlength, hrounds, hrounds',
              hreply⟩ := ih hafter (hnext hgoes) (hnext' hgoes') hround hline (by omega)
            refine ⟨one.lineTrace first :: earlier, shown, different, written, later, ?_, ?_, ?_,
              hreply⟩
            · rw [List.length_cons, hlength]
            · rw [trace_rounds_cons, if_pos hgoes, hrounds, List.cons_append]
            · rw [trace_rounds_cons, if_pos hgoes', hrounds', htrace, List.cons_append]
          · rw [if_neg hgoes] at hround
            cases hround

/-- The step that a turn makes with what is written in it. -/
def stepOf (trace : Debugger.Turn × Bytes) : Step :=
  ⟨trace.1.shown, trace.2⟩

theorem stepOf_proceed (shown : String) (written : Bytes) :
    stepOf (.proceed shown, written) = ⟨shown ++ promptSign, written⟩ := rfl

/-- How a run ends behind these turns. -/
def endingOf (traces : List (Debugger.Turn × Bytes)) : Ending :=
  match traces.getLast? with
  | some trace => trace.1.ending .command
  | none => .finished

theorem map_step_eq (rounds : List Round) :
    rounds.map Round.step = (rounds.map Round.trace).map stepOf := by
  rw [List.map_map]
  rfl

theorem endingAfter_eq (rounds : List Round) :
    endingAfter rounds = endingOf (rounds.map Round.trace) := by
  rw [endingAfter, endingOf, List.getLast?_map]
  cases rounds.getLast? <;> rfl

/-- How a run ends is not changed by what is shown for a line behind which it goes on. -/
theorem endingOf_proceed (earlier later : List (Debugger.Turn × Bytes)) (shown different : String)
    (written : Bytes) :
    endingOf (earlier ++ (.proceed shown, written) :: later) =
      endingOf (earlier ++ (.proceed different, written) :: later) := by
  cases later with
  | nil => simp [endingOf, Debugger.Turn.ending]
  | cons next rest => simp [endingOf]

end Rounds

/-! ## Whole runs -/

section Runs

variable {listing : Option Listing.Document} {first second : Stream} {lines : List String}

/-- The frames fix what a run writes up to its first prompt and what is found behind it. -/
theorem opening_of_expects {frames : List (Bytes × Bool)} {stop : Option Fault}
    (h : (Session.connect first).2.Expects frames stop)
    (hwrites : WritesSucceed listing first lines) :
    (opening listing first).1 =
        .ofReply (.control .query)
          ({ session := (Session.connect first).2, listing } : Debugger).statusText
          (received stop frames).outcome ∧
      (opening listing first).2.stream.writtenSince first =
        [accepted] ++ (encode (Request.control .query).payload ++ (received stop frames).written) ∧
      ((opening listing first).1.goesOn = true →
        (opening listing first).2.Foresees lines (received stop frames).left stop) := by
  obtain ⟨houtcome, hextends, hleft⟩ := Session.perform_of_expects h rfl hwrites.sends_query
  have hturn : (opening listing first).1 =
      .ofReply (.control .query)
        ({ session := (Session.connect first).2, listing } : Debugger).statusText
        (received stop frames).outcome := by
    rw [opening, Debugger.queryState_eq, houtcome]
    rfl
  refine ⟨hturn, ?_, ?_⟩
  · rw [opening_eq]
    exact (hextends.trans (Session.extends_of_connect hwrites.opens)).writtenSince_eq
  · intro hgoes
    have hsends := hwrites.sends_requests hgoes
    rw [hturn] at hgoes
    obtain ⟨payload, hpayload⟩ := Debugger.Turn.exists_reply_of_goesOn hgoes
    refine ⟨?_, hsends⟩
    rw [opening_eq]
    exact hleft payload hpayload

/-- Runs whose first reply is the same begin alike. -/
theorem opening_of_common {before frames others : List (Bytes × Bool)} {stop : Option Fault}
    (hone : (Session.connect first).2.Expects (before ++ frames) stop)
    (hother : (Session.connect second).2.Expects (before ++ others) stop)
    (hwrites : WritesSucceed listing first lines) (hwrites' : WritesSucceed listing second lines)
    (henough : 0 < before.countP (·.2)) :
    (opening listing first).1 = (opening listing second).1 ∧
      (opening listing first).2.stream.writtenSince first =
        (opening listing second).2.stream.writtenSince second ∧
      (opening listing first).2.Alike (opening listing second).2 ∧
      ∃ left, left.countP (·.2) + 1 = before.countP (·.2) ∧
        ((opening listing first).1.goesOn = true →
          (opening listing first).2.Foresees lines (left ++ frames) stop) ∧
        ((opening listing second).1.goesOn = true →
          (opening listing second).2.Foresees lines (left ++ others) stop) := by
  obtain ⟨payload, written, left, hcount, hreceived⟩ := received_append henough stop
  obtain ⟨hturn, hwritten, hnext⟩ := opening_of_expects hone hwrites
  obtain ⟨hturn', hwritten', hnext'⟩ := opening_of_expects hother hwrites'
  rw [hreceived] at hturn hwritten hnext hturn' hwritten' hnext'
  refine ⟨hturn.trans hturn'.symm, hwritten.trans hwritten'.symm, ?_, left, hcount, hnext, hnext'⟩
  have houtcome := (Session.perform_of_expects hone rfl hwrites.sends_query).1
  have houtcome' := (Session.perform_of_expects hother rfl hwrites'.sends_query).1
  have hquery : ∀ after, reception (Request.control .query).expectsReply stop (before ++ after) =
      ⟨.ok payload, written, left ++ after⟩ := hreceived
  rw [hquery] at houtcome houtcome'
  rw [opening_eq, opening_eq]
  have halike : ({ session := (Session.connect first).2, listing } : Debugger).Alike
      { session := (Session.connect second).2, listing } := ⟨rfl, rfl⟩
  exact halike.afterRequest (houtcome.trans houtcome'.symm)

/-- A reply with data affects only its own line.  Two runs whose targets send the same frames, and
stop in the same way, but for the payload of the intact frame that answers a request for data have
the same report but for what is shown for that line: every other step shows and writes the same,
that line writes the same, as many lines are read, and the runs end in the same way.  The frame
answers the request if as many intact frames come before it as requests that expect a reply. -/
theorem run_isolated {environment : Environment} {other : String → UInt16 → Except String Stream}
    {arguments : List String} {options : Options} {before after : List (Bytes × Bool)}
    {reply changed : Bytes} {index : Nat} {round : Round} {line : String} {request : Request}
    (hoptions : Options.parse arguments = .ok options)
    (hlisting : loadOptional environment.file? options = .ok listing)
    (hconnect : environment.connect options.address options.port = .ok first)
    (hother : other options.address options.port = .ok second)
    (hwrites : WritesSucceed listing first environment.lines)
    (hwrites' : WritesSucceed listing second environment.lines)
    (hframes : first.frames = before ++ (reply, true) :: after)
    (hframes' : second.frames = before ++ (changed, true) :: after)
    (hstop : first.stop = second.stop)
    (hround : (answeredRounds listing first environment.lines)[index]? = some round)
    (hline : environment.lines[index]? = some line)
    (hrequest : round.before.lineRequest? line = some request) (hdata : movesData request = true)
    (hanswers : before.countP (·.2) =
      (earlierCalls listing first environment.lines index).countP Request.expectsReply) :
    ∃ report earlier shown different written later,
      run environment arguments = .ok report ∧
        report.steps = earlier ++ ⟨shown, written⟩ :: later ∧ earlier.length = index + 1 ∧
        run { environment with connect := other } arguments =
          .ok { report with steps := earlier ++ ⟨different, written⟩ :: later } ∧
        (round.before.session.perform request).1 = .ofExcept (request.decode reply) := by
  have hone := Session.expects_connect first
  have htwo := Session.expects_connect second
  rw [hframes] at hone
  rw [hframes', ← hstop] at htwo
  have henough : 0 < before.countP (·.2) := by
    rw [hanswers, earlierCalls, List.countP_cons_of_pos rfl]
    exact Nat.succ_pos _
  obtain ⟨hturn, hwritten, halike, left, hcount, hnext, hnext'⟩ :=
    opening_of_common hone htwo hwrites hwrites' henough
  have hgoes : (opening listing first).1.goesOn = true := by
    by_contra hends
    simp [answeredRounds, hends] at hround
  have hgoes' : (opening listing second).1.goesOn = true := by
    rw [← hturn]
    exact hgoes
  have hrounds : answeredRounds listing first environment.lines =
      rounds (opening listing first).2 environment.lines := by
    rw [answeredRounds, if_pos hgoes]
  have hrounds' : answeredRounds listing second environment.lines =
      rounds (opening listing second).2 environment.lines := by
    rw [answeredRounds, if_pos hgoes']
  rw [hrounds] at hround
  have hremaining : left.countP (·.2) =
      ((opening listing first).2.requests (environment.lines.take index)).countP
        Request.expectsReply := by
    rw [earlierCalls, List.countP_cons_of_pos rfl] at hanswers
    omega
  obtain ⟨earlier, shown, different, written, later, hlength, htrace, htrace', hreply⟩ :=
    exists_trace_rounds halike (hnext hgoes) (hnext' hgoes') hround hline hrequest hdata hremaining
  have hrun := run_eq hoptions hlisting hconnect
  have hrun' : run { environment with connect := other } arguments = _ :=
    run_eq hoptions hlisting hother
  rw [debug_eq hwrites.opens, if_pos hgoes, hrounds, map_step_eq, endingAfter_eq, htrace] at hrun
  rw [debug_eq hwrites'.opens, if_pos hgoes', hrounds', map_step_eq, endingAfter_eq, htrace',
    ← endingOf_proceed earlier later shown different written, ← hturn, ← hwritten] at hrun'
  let opened : Step := ⟨(opening listing first).1.shown,
    (opening listing first).2.stream.writtenSince first⟩
  refine ⟨_, opened :: earlier.map stepOf, shown ++ promptSign, different ++ promptSign, written,
    later.map stepOf, hrun, ?_, ?_, ?_, hreply⟩
  · simp [stepOf_proceed, opened]
  · simp [hlength]
  · rw [hrun']
    simp [stepOf_proceed, opened]

end Runs

/-- What a target sends, in reads of three bytes. -/
def dribbling (bytes : Bytes) : Stream where
  events := (bytes.toChunks 3).map .data

/-- The frames of a target that repeats itself, steps, reads memory as told, and tells its
registers. -/
def conversation (memory : String) : Bytes :=
  encode (Text.encodeUtf8 "T05048000") ++ Text.encodeUtf8 "+$T05#00" ++
    encode (Text.encodeUtf8 "T05048003") ++ Text.encodeUtf8 "+" ++
      encode (Text.encodeUtf8 memory) ++ encode (Text.encodeUtf8 "01020304800300")

def conversationEnvironment : Environment where
  file? _ := none
  connect _ _ := .ok (dribbling (conversation "A9"))
  lines := ["s", "x 0x10", "i r", "q"]

/-- The same target, which now refuses to read memory. -/
def refusingMemory : String → UInt16 → Except String Stream :=
  fun _ _ => .ok (dribbling (conversation "E01"))

theorem isolated_memory :
    let one := dribbling (conversation "A9")
    let two := dribbling (conversation "E01")
    ∃ round report earlier shown different written later,
      (answeredRounds none one conversationEnvironment.lines)[1]? = some round ∧
        round.before.lineRequest? "x 0x10" = some (.readMemory 0x10 1) ∧
        WritesSucceed none one conversationEnvironment.lines ∧
        WritesSucceed none two conversationEnvironment.lines ∧
        run conversationEnvironment [] = .ok report ∧
        report.steps = earlier ++ ⟨shown, written⟩ :: later ∧ earlier.length = 2 ∧
        run { conversationEnvironment with connect := refusingMemory } [] =
          .ok { report with steps := earlier ++ ⟨different, written⟩ :: later } := by
  intro one two
  have hframes : one.frames = [(Text.encodeUtf8 "T05048000", true), (Text.encodeUtf8 "T05", false),
      (Text.encodeUtf8 "T05048003", true)] ++ (Text.encodeUtf8 "A9", true) ::
        [(Text.encodeUtf8 "01020304800300", true)] := by
    decide +kernel
  have hframes' : two.frames = [(Text.encodeUtf8 "T05048000", true),
      (Text.encodeUtf8 "T05", false), (Text.encodeUtf8 "T05048003", true)] ++
        (Text.encodeUtf8 "E01", true) :: [(Text.encodeUtf8 "01020304800300", true)] := by
    decide +kernel
  have hstop : one.stop = two.stop := by decide +kernel
  have hwrites : WritesSucceed none one conversationEnvironment.lines :=
    ⟨by decide +kernel, by decide +kernel⟩
  have hwrites' : WritesSucceed none two conversationEnvironment.lines :=
    ⟨by decide +kernel, by decide +kernel⟩
  have hmade : ((answeredRounds none one conversationEnvironment.lines)[1]?.bind
      fun round => round.before.lineRequest? "x 0x10") = some (.readMemory 0x10 1) := by
    decide +kernel
  obtain ⟨round, hround, hrequest⟩ := Option.bind_eq_some_iff.mp hmade
  have hanswers : [(Text.encodeUtf8 "T05048000", true), (Text.encodeUtf8 "T05", false),
      (Text.encodeUtf8 "T05048003", true)].countP (·.2) =
        (earlierCalls none one conversationEnvironment.lines 1).countP Request.expectsReply := by
    decide +kernel
  have hoptions : Options.parse [] = .ok {} := rfl
  have hconnect : conversationEnvironment.connect "::1" 6502 = .ok one := rfl
  have hother : refusingMemory "::1" 6502 = .ok two := rfl
  obtain ⟨report, earlier, shown, different, written, later, hrun, hsteps, hlength, hrun', -⟩ :=
    run_isolated hoptions rfl hconnect hother hwrites hwrites' hframes hframes' hstop hround rfl
      hrequest rfl hanswers
  exact ⟨round, report, earlier, shown, different, written, later, hround, hrequest, hwrites,
    hwrites', hrun, hsteps, hlength, hrun'⟩

end RemoteDebugger.Prompt
