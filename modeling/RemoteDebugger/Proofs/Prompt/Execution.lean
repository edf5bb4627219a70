import RemoteDebugger.Prompt.Program

/-!
# Commands as requests

A command makes at most one request, and what it does to the debugger is settled by the outcome of
that request.  `Debugger.request?` names it, and `Debugger.afterRequest` is the state behind it; the
two equations for `execute` are all that later proofs need of the commands.
-/

namespace RemoteDebugger.Prompt

open RemoteDebugger.Target

/-! ## What a request tells of the program counter -/

/-- The address in the stop reply that a request returned. -/
def replyAddress? : (request : Request) → Outcome Error request.Reply → Option UInt16
  | .control _, .ok status => status.address
  | _, _ => none

/-- Whether a request has reset the target. -/
def hasReset : (request : Request) → Outcome Error request.Reply → Bool
  | .reset, .ok _ => true
  | _, _ => false

namespace Debugger

/-! ## Commands -/

/-- The request that `list` makes, which is for the registers where it needs the program counter
and none is known. -/
def listRequest? (debugger : Debugger) (target : Option String) : Option Request :=
  match debugger.listing, target, debugger.lastPc with
  | some _, none, none => some .registers
  | _, _, _ => none

/-- The request that a command makes. -/
def request? (debugger : Debugger) : Command → Option Request
  | .halt => some (.control .halt)
  | .step => some (.control .step)
  | .resume => some (.control .resume)
  | .set address value => some (.writeMemory address [value])
  | .reset => some .reset
  | .registers => some .registers
  | .peripherals => some .peripherals
  | .examine address length => some (.readMemory address length)
  | .list target => debugger.listRequest? target
  | .help | .breakpoint | .symbol _ | .quit => none

/-- The debugger with another session. -/
def withSession (debugger : Debugger) (session : Session) : Debugger :=
  { debugger with session }

/-- The debugger after a request: with the session behind it, and with no program counter after a
reset and else that of the stop reply, if it has one. -/
def afterRequest (debugger : Debugger) (request : Request) : Debugger :=
  let performed := debugger.session.perform request
  { debugger with
    session := performed.2
    lastPc :=
      if hasReset request performed.1 then none
      else (replyAddress? request performed.1).or debugger.lastPc }

theorem control_eq (debugger : Debugger) (action : Control) :
    debugger.control action =
      ((debugger.session.perform (.control action)).1.map debugger.statusText,
        debugger.afterRequest (.control action)) := by
  unfold control afterRequest
  rcases debugger.session.perform (.control action) with ⟨_ | _ | _, session⟩ <;> rfl

theorem reset_eq (debugger : Debugger) :
    debugger.reset =
      ((debugger.session.perform .reset).1.map fun _ => "", debugger.afterRequest .reset) := by
  unfold reset afterRequest
  rcases debugger.session.perform .reset with ⟨_ | _ | _, session⟩ <;> rfl

/-- A request for data leaves the program counter as it was. -/
theorem ask_eq {debugger : Debugger} {request : Request} {describe : request.Reply → String}
    (hstop : ∀ action, request ≠ .control action) (hreset : request ≠ .reset) :
    debugger.ask request describe =
      ((debugger.session.perform request).1.map describe, debugger.afterRequest request) := by
  cases request with
  | control action => exact absurd rfl (hstop action)
  | reset => exact absurd rfl hreset
  | _ => rfl

theorem queryState_eq (debugger : Debugger) :
    debugger.queryState =
      (.ofOutcome false
          ((debugger.session.perform (.control .query)).1.map debugger.statusText),
        debugger.afterRequest (.control .query)) := by
  simp only [queryState, control_eq]

/-! ## The state at the start -/

section Query

variable {listing : Option Listing.Document} {session after : Session}

theorem queryState_of_ok {status : StopStatus}
    (h : session.perform (.control .query) = (.ok status, after)) :
    ({ session, listing } : Debugger).queryState =
      (.proceed (({ session, listing } : Debugger).statusText status),
        { session := after, listing, lastPc := status.address }) := by
  rw [queryState_eq, afterRequest, h]
  simp only [hasReset, replyAddress?, Option.or_none]
  rfl

theorem queryState_of_error {error : Error}
    (h : session.perform (.control .query) = (.error error, after)) :
    ({ session, listing } : Debugger).queryState =
      (.ofOutcome false (.error error), { session := after, listing }) := by
  rw [queryState_eq, afterRequest, h]
  rfl

end Query

/-! ## The command `list` -/

theorem list_of_no_listing {debugger : Debugger} (target : Option String)
    (h : debugger.listing = none) :
    debugger.list target = (.ok "No listing loaded\n", debugger) := by
  simp only [list, h]

theorem list_of_target {debugger : Debugger} {listing : Listing.Document} (target : String)
    (h : debugger.listing = some listing) :
    debugger.list (some target) =
      (.ok (match targetAddress? listing target with
        | some address => debugger.sourceText address
        | none => "Unknown symbol or address: " ++ target ++ "\n"), debugger) := by
  simp only [list, h]
  cases targetAddress? listing target <;> rfl

theorem list_of_lastPc {debugger : Debugger} {listing : Listing.Document} {pc : UInt16}
    (h : debugger.listing = some listing) (hpc : debugger.lastPc = some pc) :
    debugger.list none = (.ok (debugger.sourceText pc), debugger) := by
  simp only [list, h, hpc]

theorem list_of_no_lastPc {debugger : Debugger} {listing : Listing.Document}
    (h : debugger.listing = some listing) (hpc : debugger.lastPc = none) :
    debugger.list none =
      ((debugger.session.perform .registers).1.map fun registers =>
          debugger.sourceText registers.pc,
        debugger.afterRequest .registers) := by
  simp only [list, h, hpc]
  exact ask_eq (by simp) (by simp)

/-! ## All commands -/

theorem listRequest?_eq_some {debugger : Debugger} {target : Option String} {request : Request}
    (h : debugger.listRequest? target = some request) :
    ∃ listing, debugger.listing = some listing ∧ target = none ∧ debugger.lastPc = none ∧
      request = .registers := by
  unfold listRequest? at h
  split at h
  · next listing hlisting hpc => exact ⟨listing, hlisting, rfl, hpc, (Option.some.inj h).symm⟩
  · cases h

theorem oversize?_of_request? {debugger : Debugger} {command : Command} {request : Request}
    (h : debugger.request? command = some request) : request.oversize? = none := by
  cases command with
  | list target =>
      obtain ⟨listing, -, -, -, rfl⟩ := listRequest?_eq_some h
      rfl
  | _ => cases h <;> rfl

theorem request?_withSession (debugger : Debugger) (session : Session) (command : Command) :
    (debugger.withSession session).request? command = debugger.request? command := by
  cases command <;> rfl

/-- A command that makes a request ends as the request does, and describes the reply without a look
at the session. -/
theorem exists_describe {debugger : Debugger} {command : Command} {request : Request}
    (h : debugger.request? command = some request) :
    ∃ describe : request.Reply → String, ∀ session : Session,
      (debugger.withSession session).execute command =
        ((session.perform request).1.map describe,
          (debugger.withSession session).afterRequest request) := by
  cases command with
  | halt | step | resume =>
      cases h
      exact ⟨debugger.statusText, fun session => (debugger.withSession session).control_eq _⟩
  | reset =>
      cases h
      exact ⟨_, fun session => (debugger.withSession session).reset_eq⟩
  | set | registers | peripherals | examine =>
      cases h
      exact ⟨_, fun session => ask_eq (by simp) (by simp)⟩
  | list target =>
      obtain ⟨listing, hlisting, rfl, hpc, rfl⟩ := listRequest?_eq_some h
      refine ⟨fun registers => debugger.sourceText registers.pc, ?_⟩
      intro session
      have hsame : (debugger.withSession session).listing = some listing := hlisting
      exact list_of_no_lastPc hsame hpc
  | help | breakpoint | symbol | quit => cases h

theorem execute_of_request {debugger : Debugger} {command : Command} {request : Request}
    (h : debugger.request? command = some request) :
    ∃ describe : request.Reply → String,
      debugger.execute command =
        ((debugger.session.perform request).1.map describe, debugger.afterRequest request) := by
  obtain ⟨describe, hexecute⟩ := exists_describe h
  exact ⟨describe, hexecute debugger.session⟩

/-- A command that makes no request succeeds and changes nothing, whatever the session. -/
theorem exists_text {debugger : Debugger} {command : Command}
    (h : debugger.request? command = none) :
    ∃ text, ∀ session : Session,
      (debugger.withSession session).execute command =
        (.ok text, debugger.withSession session) := by
  cases command with
  | help | breakpoint | quit => exact ⟨_, fun _ => rfl⟩
  | symbol name => exact ⟨debugger.symbolText name, fun _ => rfl⟩
  | list target =>
      cases hlisting : debugger.listing with
      | none => exact ⟨_, fun session => list_of_no_listing target hlisting⟩
      | some listing =>
          cases target with
          | some target =>
              refine ⟨match targetAddress? listing target with
                | some address => debugger.sourceText address
                | none => "Unknown symbol or address: " ++ target ++ "\n", ?_⟩
              intro session
              have hsame : (debugger.withSession session).listing = some listing := hlisting
              exact list_of_target target hsame
          | none =>
              cases hpc : debugger.lastPc with
              | some pc =>
                  refine ⟨debugger.sourceText pc, ?_⟩
                  intro session
                  have hsame : (debugger.withSession session).listing = some listing := hlisting
                  exact list_of_lastPc hsame hpc
              | none => simp [request?, listRequest?, hlisting, hpc] at h
  | _ => cases h

theorem execute_of_no_request {debugger : Debugger} {command : Command}
    (h : debugger.request? command = none) :
    ∃ text, debugger.execute command = (.ok text, debugger) := by
  obtain ⟨text, hexecute⟩ := exists_text h
  exact ⟨text, hexecute debugger.session⟩

/-! ## Lines -/

/-- The command on a line, without the blanks around it. -/
def readLine (line : String) : Except CommandError (Option Command) :=
  Command.parse (String.ofList (Text.trim line.toList))

theorem answer_of_error {line : String} {reason : CommandError} (debugger : Debugger)
    (h : readLine line = .error reason) :
    debugger.answer line = (.proceed (reason.message ++ "\n"), debugger) := by
  rw [readLine] at h
  simp only [answer, h]

theorem answer_of_blank {line : String} (debugger : Debugger) (h : readLine line = .ok none) :
    debugger.answer line = (.proceed "", debugger) := by
  rw [readLine] at h
  simp only [answer, h]

theorem answer_of_command {line : String} {command : Command} (debugger : Debugger)
    (h : readLine line = .ok (some command)) :
    debugger.answer line =
      (.ofOutcome (command == .quit) (debugger.execute command).1,
        (debugger.execute command).2) := by
  rw [readLine] at h
  simp only [answer, h]

/-- The request that a line makes. -/
def lineRequest? (debugger : Debugger) (line : String) : Option Request :=
  match readLine line with
  | .ok (some command) => debugger.request? command
  | _ => none

theorem oversize?_of_lineRequest? {debugger : Debugger} {line : String} {request : Request}
    (h : debugger.lineRequest? line = some request) : request.oversize? = none := by
  rcases hline : readLine line with reason | _ | command
  · simp [lineRequest?, hline] at h
  · simp [lineRequest?, hline] at h
  · exact oversize?_of_request? (by simpa only [lineRequest?, hline] using h)

/-- A line without a request has the same answer in every session and changes nothing. -/
theorem answer_of_no_request {debugger : Debugger} {line : String}
    (h : debugger.lineRequest? line = none) :
    ∃ turn, ∀ session : Session,
      (debugger.withSession session).answer line = (turn, debugger.withSession session) := by
  rcases hline : readLine line with reason | _ | command
  · exact ⟨_, fun session => (debugger.withSession session).answer_of_error hline⟩
  · exact ⟨_, fun session => (debugger.withSession session).answer_of_blank hline⟩
  · have hrequest : debugger.request? command = none := by
      simpa only [lineRequest?, hline] using h
    obtain ⟨text, hexecute⟩ := exists_text hrequest
    refine ⟨.ofOutcome (command == .quit) (.ok text), ?_⟩
    intro session
    rw [answer_of_command _ hline, hexecute session]

/-- The answer to a line with a request is settled by the outcome of that request. -/
theorem answer_of_request {debugger : Debugger} {line : String} {request : Request}
    (h : debugger.lineRequest? line = some request) :
    ∃ describe : request.Reply → String, ∀ session : Session,
      (debugger.withSession session).answer line =
        (.ofOutcome false ((session.perform request).1.map describe),
          (debugger.withSession session).afterRequest request) := by
  rcases hline : readLine line with reason | _ | command
  · simp [lineRequest?, hline] at h
  · simp [lineRequest?, hline] at h
  · have hrequest : debugger.request? command = some request := by
      simpa only [lineRequest?, hline] using h
    have hlast : (command == .quit) = false := by
      cases command with
      | quit => cases hrequest
      | _ => rfl
    obtain ⟨describe, hexecute⟩ := exists_describe hrequest
    refine ⟨describe, ?_⟩
    intro session
    rw [answer_of_command _ hline, hexecute session, hlast]

theorem exists_answer_of_request {debugger : Debugger} {line : String} {request : Request}
    (h : debugger.lineRequest? line = some request) :
    ∃ describe : request.Reply → String,
      debugger.answer line =
        (.ofOutcome false ((debugger.session.perform request).1.map describe),
          debugger.afterRequest request) := by
  obtain ⟨describe, hanswer⟩ := answer_of_request h
  exact ⟨describe, hanswer debugger.session⟩

/-- The requests that lines make, up to the line that ends the run. -/
def requests (debugger : Debugger) : List String → List Request
  | [] => []
  | line :: later =>
    (debugger.lineRequest? line).toList ++
      if (debugger.answer line).1.goesOn then (debugger.answer line).2.requests later else []

theorem requests_cons (debugger : Debugger) (line : String) (later : List String) :
    debugger.requests (line :: later) =
      (debugger.lineRequest? line).toList ++
        if (debugger.answer line).1.goesOn then (debugger.answer line).2.requests later else [] := by
  rw [requests]

/-- A line leaves the debugger as its request does, and as it was if it makes none. -/
theorem answer_after (debugger : Debugger) (line : String) :
    (debugger.answer line).2 =
      match debugger.lineRequest? line with
      | some request => debugger.afterRequest request
      | none => debugger := by
  cases hrequest : debugger.lineRequest? line with
  | none =>
      obtain ⟨turn, hanswer⟩ := answer_of_no_request hrequest
      exact congrArg Prod.snd (hanswer debugger.session)
  | some request =>
      obtain ⟨describe, hanswer⟩ := exists_answer_of_request hrequest
      rw [hanswer]

end Debugger

theorem rounds_cons (debugger : Debugger) (line : String) (later : List String) :
    rounds debugger (line :: later) =
      ⟨debugger, (debugger.answer line).1, (debugger.answer line).2⟩ ::
        if (debugger.answer line).1.goesOn then rounds (debugger.answer line).2 later else [] := by
  rw [rounds]

end RemoteDebugger.Prompt
