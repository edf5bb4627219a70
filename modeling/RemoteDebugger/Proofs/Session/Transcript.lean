import RemoteDebugger.Proofs.Session.Pending
import RemoteDebugger.Proofs.Target.Requests
import RemoteDebugger.Proofs.Wire.Delivery
import RemoteDebugger.Proofs.Wire.Encoding

/-!
# What the target receives

A session writes frames and, between them, acknowledgements.  No acknowledgement opens a frame and
no payload ends its own, so the target finds in all that was written one intact frame for each
request that was sent, in order, and reads the request back from it.
-/

namespace RemoteDebugger

namespace Wire

/-! ## Writes that succeed -/

/-- Whether an operation ran to its end: a write that was accepted whole, a read that was ready. -/
def Event.completes : Event → Bool
  | .read outcome => !outcome.isAbandoned
  | .write _ outcome => outcome = .ok ()
  | .remove _ _ => true

theorem Event.isStall_of_completes {event : Event} (h : event.completes = true) :
    event.isStall = false := by
  cases event with
  | read outcome =>
      cases outcome with
      | abandoned => cases h
      | _ => rfl
  | write bytes outcome =>
      cases outcome with
      | abandoned => simp [completes] at h
      | _ => rfl
  | remove piece frame => rfl

theorem Stream.accepts_of_write_ok {stream : Stream} {bytes : Bytes}
    (h : (stream.write bytes).1 = .ok ()) : stream.Accepts bytes.length := by
  intro room hroom
  by_contra hlong
  simp only [Stream.write, hroom, hlong, if_false] at h
  cases hend : stream.writeEnd <;> simp [hend] at h

/-- Where every write succeeds, all that was attempted is written. -/
theorem Link.Moves.extends_of_answered {link last : Link} {history : List Event}
    (h : Moves link history last) :
    (∀ outcome ∈ answered history, outcome = .ok ()) →
      last.stream.Extends link.stream (attempted history).flatten := by
  induction h with
  | done => exact fun _ => ⟨[], rfl, rfl⟩
  | read hread _ ih =>
      intro hwrites
      simpa [Event.attempted?] using (ih hwrites).trans (Stream.extends_read hread)
  | @write link last bytes outcome stream later hwrite _ ih =>
      intro hwrites
      obtain ⟨hok, hlater⟩ := List.forall_mem_cons.mp hwrites
      have haccepts : link.stream.Accepts (bytes.length + 0) :=
        Stream.accepts_of_write_ok (by rw [hwrite, hok])
      obtain ⟨-, -, hextends⟩ := haccepts.write hwrite
      simpa [Event.attempted?] using (ih hlater).trans hextends
  | remove _ _ ih =>
      intro hwrites
      simpa [Event.attempted?] using ih hwrites

theorem answered_of_completes {history : List Event}
    (h : ∀ event ∈ history, event.completes = true) :
    ∀ outcome ∈ answered history, outcome = .ok () := by
  intro outcome houtcome
  obtain ⟨event, hevent, hanswered⟩ := List.mem_filterMap.mp houtcome
  cases event with
  | write bytes result =>
      obtain rfl : result = outcome := Option.some.inj hanswered
      simpa [Event.completes] using h _ hevent
  | _ => cases hanswered

theorem Link.Moves.extends_of_completes {link last : Link} {history : List Event}
    (h : Moves link history last) (hcompletes : ∀ event ∈ history, event.completes = true) :
    last.stream.Extends link.stream (attempted history).flatten :=
  h.extends_of_answered (answered_of_completes hcompletes)

/-! ## Frames among acknowledgements -/

/-- Payloads in their frames, each with the bytes that are written behind it. -/
def interleaved (messages : List (Bytes × Bytes)) : Bytes :=
  messages.flatMap fun (payload, behind) => encode payload ++ behind

theorem interleaved_append (before after : List (Bytes × Bytes)) :
    interleaved (before ++ after) = interleaved before ++ interleaved after :=
  List.flatMap_append

/-- What a reader of frames can tell of each of them: its payload, and whether it is intact. -/
def contents (frames : List Frame) : List (Bytes × Bool) :=
  frames.map fun frame => (frame.payload, frame.intact)

/-- Frames are found whatever lies between them, unless it opens a frame itself. -/
theorem drain_interleaved {noise : Bytes} {messages : List (Bytes × Bytes)}
    (hnoise : startMark ∉ noise)
    (hmessages : ∀ message ∈ messages, endMark ∉ message.1 ∧ startMark ∉ message.2) :
    contents (drain (noise ++ interleaved messages)).1 =
        messages.map (fun message => (message.1, true)) ∧
      startMark ∉ (drain (noise ++ interleaved messages)).2 := by
  induction messages generalizing noise with
  | nil =>
      have hdrain := drain_of_startMark_not_mem hnoise
      simpa [interleaved, contents, hdrain] using hnoise
  | cons message later ih =>
      obtain ⟨hpayload, hbehind⟩ := hmessages message List.mem_cons_self
      have hlater := ih hbehind fun other hother => hmessages other (List.mem_cons_of_mem _ hother)
      have hframe := extract?_encode hnoise hpayload (message.2 ++ interleaved later)
      have hsplit : noise ++ interleaved (message :: later) =
          noise ++ encode message.1 ++ (message.2 ++ interleaved later) := by
        simp [interleaved]
      rw [hsplit, drain_of_some hframe]
      refine ⟨?_, hlater.2⟩
      rw [List.map_cons, ← hlater.1]
      rfl

theorem startMark_ne_acknowledgement (frame : Frame) : startMark ≠ frame.acknowledgement := by
  unfold Frame.acknowledgement
  split <;> decide

theorem Link.startMark_not_mem_receiveHistory (link : Link) :
    startMark ∉ (attempted link.receiveHistory).flatten := by
  rw [(receives_receiveHistory link).attempted_eq]
  intro hmem
  obtain ⟨piece, hpiece, hstart⟩ := List.mem_flatten.mp hmem
  obtain ⟨frame, -, rfl⟩ := List.mem_map.mp hpiece
  exact startMark_ne_acknowledgement frame (List.mem_singleton.mp hstart)

end Wire

namespace Session

open RemoteDebugger.Target RemoteDebugger.Wire

/-! ## One request -/

/-- A request writes its frame, and behind it only what opens no frame. -/
theorem exists_attempted_exchangeHistory (link : Link) (request : Request) :
    ∃ behind, startMark ∉ behind ∧
      (attempted (exchangeHistory link request)).flatten = encode request.payload ++ behind := by
  unfold exchangeHistory
  rcases link.send request.payload with ⟨_ | fault | _, sent⟩
  · cases request.expectsReply with
    | true =>
        refine ⟨(attempted sent.receiveHistory).flatten, ?_, ?_⟩
        · exact sent.startMark_not_mem_receiveHistory
        · simp [Event.attempted?]
    | false => exact ⟨[], by simp, by simp [Event.attempted?]⟩
  · exact ⟨[], by simp, by simp [Event.attempted?]⟩
  · exact ⟨[], by simp, by simp [Event.attempted?]⟩

/-- Every write succeeds that a session makes for requests, one after the other. -/
def Sends (session : Session) (requests : List Request) : Prop :=
  ∀ outcome ∈ answered (session.histories requests).flatten, outcome = .ok ()

instance (session : Session) (requests : List Request) : Decidable (session.Sends requests) :=
  inferInstanceAs (Decidable (∀ outcome ∈ answered (session.histories requests).flatten,
    outcome = .ok ()))

theorem sends_append {session : Session} {before after : List Request} :
    session.Sends (before ++ after) ↔
      session.Sends before ∧ (session.run before).2.Sends after := by
  simp only [Sends, histories_append, List.flatten_append, answered_append,
    List.forall_mem_append]

theorem sends_singleton {session : Session} {request : Request} :
    session.Sends [request] ↔ ∀ outcome ∈ answered (session.historyOf request),
      outcome = .ok () := by
  simp only [Sends, histories, List.flatten_cons, List.flatten_nil, List.append_nil]

/-- A request whose writes succeed is written whole, and behind it only what opens no frame. -/
theorem exists_extends_perform {session : Session} {request : Request}
    (hpending : session.pending = none) (hsize : request.oversize? = none)
    (hsends : session.Sends [request]) :
    ∃ behind, startMark ∉ behind ∧
      (session.perform request).2.link.stream.Extends session.link.stream
        (encode request.payload ++ behind) := by
  obtain ⟨behind, hnoise, hattempted⟩ := exists_attempted_exchangeHistory session.link request
  have hextends :=
    (moves_historyOf session request).extends_of_answered (sends_singleton.mp hsends)
  have hhistory : session.historyOf request = exchangeHistory session.link request := by
    rw [historyOf, hsize, hpending]
  rw [hhistory, hattempted] at hextends
  exact ⟨behind, hnoise, hextends⟩

theorem pending_perform_of_completes {session : Session} {request : Request}
    (hpending : session.pending = none)
    (hcompletes : ∀ event ∈ session.historyOf request, event.completes = true) :
    (session.perform request).2.pending = none := by
  have hstall : (session.historyOf request).any Event.isStall = false := by
    rw [List.any_eq_false]
    intro event hevent
    simp [Event.isStall_of_completes (hcompletes event hevent)]
  rw [any_isStall_historyOf] at hstall
  rw [pending_perform, hstall, hpending]
  rfl

/-! ## Whole runs -/

/-- The requests that are sent, which are those that fit one packet. -/
def sent (requests : List Request) : List Request :=
  requests.filter (·.oversize?.isNone)

/-- A run writes the frames of the requests that are sent, each with what follows it. -/
theorem exists_messages {session : Session} {requests : List Request}
    (hpending : session.pending = none)
    (hcompletes : ∀ event ∈ (session.histories requests).flatten, event.completes = true) :
    ∃ messages : List (Bytes × Bytes),
      messages.map Prod.fst = (sent requests).map Request.payload ∧
        (∀ message ∈ messages, startMark ∉ message.2) ∧
        (attempted (session.histories requests).flatten).flatten = interleaved messages := by
  induction requests generalizing session with
  | nil => exact ⟨[], rfl, by simp, rfl⟩
  | cons request later ih =>
      rw [histories, List.flatten_cons] at hcompletes
      obtain ⟨hfirst, hmore⟩ := List.forall_mem_append.mp hcompletes
      have hnext := pending_perform_of_completes hpending hfirst
      obtain ⟨messages, hpayloads, hbehind, hwritten⟩ := ih hnext hmore
      have hsplit : (attempted (session.histories (request :: later)).flatten).flatten =
          (attempted (session.historyOf request)).flatten ++ interleaved messages := by
        rw [← hwritten, histories, List.flatten_cons, attempted, List.filterMap_append,
          List.flatten_append]
        rfl
      cases hsize : request.oversize? with
      | some size =>
          refine ⟨messages, ?_, hbehind, ?_⟩
          · simpa [sent, hsize] using hpayloads
          · simpa [historyOf, hsize] using hsplit
      | none =>
          obtain ⟨behind, hnoise, hexchange⟩ :=
            exists_attempted_exchangeHistory session.link request
          refine ⟨(request.payload, behind) :: messages, ?_, ?_, ?_⟩
          · simpa [sent, hsize] using hpayloads
          · intro message hmessage
            rcases List.mem_cons.mp hmessage with rfl | hmessage
            · exact hnoise
            · exact hbehind message hmessage
          · rw [hsplit, historyOf, hsize, hpending, hexchange]
            rfl

theorem oversize?_of_mem_sent {requests : List Request} {request : Request}
    (h : request ∈ sent requests) : request.oversize? = none :=
  Option.isNone_iff_eq_none.mp (List.mem_filter.mp h).2

theorem extends_of_connect {stream : Stream} (h : (connect stream).1 = .ok ()) :
    (connect stream).2.link.stream.Extends stream [accepted] := by
  have hopen : (stream.write [accepted]).1 = .ok () := by
    change ((stream.write [accepted]).1.mapError Error.connection) = .ok () at h
    cases hwrite : (stream.write [accepted]).1 with
    | ok value => rfl
    | error fault => simp [hwrite, Outcome.mapError] at h
    | abandoned => simp [hwrite, Outcome.mapError] at h
  have haccepts : stream.Accepts ([accepted].length + 0) := Stream.accepts_of_write_ok hopen
  exact (haccepts.write rfl).2.2

theorem payload_injective {request other : Request} (hrequest : request.oversize? = none)
    (hother : other.oversize? = none) (h : request.payload = other.payload) : request = other := by
  have hread := Request.ofPayload?_payload hrequest
  rw [h, Request.ofPayload?_payload hother] at hread
  exact (Option.some.inj hread).symm

/-- Where every write succeeds and no read is abandoned, all that was written is, for the target,
one intact frame for each request that was sent, and it reads that request in it. -/
theorem run_recoverable {stream : Stream} {requests : List Request}
    (hopened : (connect stream).1 = .ok ())
    (hcompletes : ∀ event ∈ ((connect stream).2.histories requests).flatten,
      event.completes = true) :
    let opened := (connect stream).2
    let last := (opened.run requests).2
    let found := drain (last.link.stream.writtenSince stream)
    Link.Moves opened.link (opened.histories requests).flatten last.link ∧
      contents found.1 = (sent requests).map (fun request => (request.payload, true)) ∧
      startMark ∉ found.2 ∧
      found.1.map (fun frame => Request.ofPayload? frame.payload) = (sent requests).map some ∧
      (∀ request : Request, request.oversize? = none →
        Request.ofPayload? request.payload = some request) ∧
      ∀ request other : Request, request.oversize? = none → other.oversize? = none →
        request.payload = other.payload → request = other := by
  intro opened last found
  have hmoves : Link.Moves opened.link (opened.histories requests).flatten last.link :=
    moves_histories opened requests
  obtain ⟨messages, hpayloads, hbehind, hattempted⟩ := exists_messages rfl hcompletes
  have hwritten : last.link.stream.writtenSince stream = [accepted] ++ interleaved messages := by
    rw [← hattempted]
    exact ((hmoves.extends_of_completes hcompletes).trans
      (extends_of_connect hopened)).writtenSince_eq
  have hmessages : ∀ message ∈ messages, endMark ∉ message.1 ∧ startMark ∉ message.2 := by
    intro message hmessage
    have hpayload : message.1 ∈ (sent requests).map Request.payload :=
      hpayloads ▸ List.mem_map_of_mem hmessage
    obtain ⟨request, -, hsame⟩ := List.mem_map.mp hpayload
    exact ⟨hsame ▸ request.endMark_not_mem_payload, hbehind message hmessage⟩
  have hopening : startMark ∉ [accepted] := by decide
  obtain ⟨hcontents, hrest⟩ := drain_interleaved hopening hmessages
  rw [← hwritten] at hcontents hrest
  have hsent : contents found.1 = (sent requests).map fun request => (request.payload, true) := by
    calc contents found.1 = (messages.map Prod.fst).map (·, true) := by
          rw [List.map_map]
          exact hcontents
      _ = (sent requests).map fun request => (request.payload, true) := by
          rw [hpayloads, List.map_map]
          rfl
  have hread : found.1.map (fun frame => Request.ofPayload? frame.payload) =
      (sent requests).map some := by
    calc found.1.map (fun frame => Request.ofPayload? frame.payload) =
          (contents found.1).map fun content => Request.ofPayload? content.1 := by
          rw [contents, List.map_map]
          rfl
      _ = (sent requests).map fun request => Request.ofPayload? request.payload := by
          rw [hsent, List.map_map]
          rfl
      _ = (sent requests).map some := by
          apply List.map_congr_left
          intro request hrequest
          exact Request.ofPayload?_payload (oversize?_of_mem_sent hrequest)
  exact ⟨hmoves, hsent, hrest, hread, fun _ => Request.ofPayload?_payload,
    fun _ _ => payload_injective⟩

theorem recovered_fragmented :
    let opened := connect fragmented
    let requests := [.reset, .writeMemory 0x0200 [0xA9], .registers]
    opened.1 = .ok () ∧
      (∀ event ∈ (opened.2.histories requests).flatten, event.completes = true) ∧
      contents (drain ((opened.2.run requests).2.link.stream.writtenSince fragmented)).1 =
        [([0x72], true), ((Request.writeMemory 0x0200 [0xA9]).payload, true), ([0x67], true)] := by
  intro opened requests
  have hopened : opened.1 = .ok () := by decide +kernel
  have hcompletes : ∀ event ∈ (opened.2.histories requests).flatten, event.completes = true := by
    decide +kernel
  obtain ⟨-, hsent, -⟩ := run_recoverable hopened hcompletes
  refine ⟨hopened, hcompletes, hsent.trans ?_⟩
  decide +kernel

end Session

end RemoteDebugger
