import RemoteDebugger.Proofs.Listing.Windows
import RemoteDebugger.Proofs.Prompt.Execution

/-!
# The tracked program counter

The debugger keeps one address between lines.  Over a whole run it is a function of the calls that
were made (`latestAddress?`): the address of the latest stop reply that carried one, unless the
target has been reset since.  What `list` shows follows from that: the window of the listing around
the line that the address was assembled from (`ShowsSource`).
-/

namespace RemoteDebugger.Prompt

open RemoteDebugger.Target RemoteDebugger.Wire
open Debugger (readLine)

/-! ## What the calls tell -/

/-- The address of the latest stop reply that carried one, among the calls since the latest reset
that succeeded. -/
def latestAddress? (calls : List Session.Step) : Option UInt16 :=
  (calls.reverse.takeWhile fun call => !hasReset call.request call.outcome).findSome? fun call =>
    replyAddress? call.request call.outcome

theorem latestAddress?_concat (calls : List Session.Step) (call : Session.Step) :
    latestAddress? (calls ++ [call]) =
      if hasReset call.request call.outcome then none
      else (replyAddress? call.request call.outcome).or (latestAddress? calls) := by
  cases hreset : hasReset call.request call.outcome with
  | true => simp [latestAddress?, hreset]
  | false =>
      cases haddress : replyAddress? call.request call.outcome <;>
        simp [latestAddress?, hreset, haddress]

/-! ## What the debugger knows -/

/-- The debugger is where the requests made so far have led it. -/
structure Tracks (opened : Session) (listing : Option Listing.Document) (made : List Request)
    (debugger : Debugger) : Prop where
  session_eq : debugger.session = (opened.run made).2
  lastPc_eq : debugger.lastPc = latestAddress? (opened.run made).1
  listing_eq : debugger.listing = listing

section Tracking

variable {opened : Session} {listing : Option Listing.Document} {made : List Request}
  {debugger : Debugger}

theorem Tracks.afterRequest (h : Tracks opened listing made debugger) (request : Request) :
    Tracks opened listing (made ++ [request]) (debugger.afterRequest request) := by
  obtain ⟨hsession, hpc, hlisting⟩ := h
  have hrun := opened.run_append made [request]
  rw [Session.run_cons, Session.run] at hrun
  refine ⟨?_, ?_, hlisting⟩
  · rw [hrun, ← hsession]
    rfl
  · rw [hrun, latestAddress?_concat, ← hsession, ← hpc]
    rfl

theorem Tracks.answer (h : Tracks opened listing made debugger) (line : String) :
    Tracks opened listing (made ++ (debugger.lineRequest? line).toList) (debugger.answer line).2 := by
  rw [debugger.answer_after line]
  cases debugger.lineRequest? line with
  | none => simpa using h
  | some request => exact h.afterRequest request

/-- Every round is the answer to its line, and the requests of all lines before it have led to
it. -/
theorem Tracks.round {lines : List String} {index : Nat} {round : Round}
    (h : Tracks opened listing made debugger)
    (hround : (rounds debugger lines)[index]? = some round) :
    ∃ line, lines[index]? = some line ∧ round.before.answer line = (round.turn, round.after) ∧
      Tracks opened listing (made ++ debugger.requests (lines.take index)) round.before ∧
      debugger.requests (lines.take (index + 1)) =
        debugger.requests (lines.take index) ++ (round.before.lineRequest? line).toList := by
  induction lines generalizing debugger made index with
  | nil => simp [rounds] at hround
  | cons line later ih =>
      have hafter := h.answer line
      rw [rounds_cons] at hround
      rcases hanswered : debugger.answer line with ⟨turn, after⟩
      rw [hanswered] at hround hafter
      cases index with
      | zero =>
          rw [List.getElem?_cons_zero, Option.some.injEq] at hround
          subst hround
          refine ⟨line, List.getElem?_cons_zero, hanswered, ?_, ?_⟩
          · simpa only [List.take_zero, Debugger.requests, List.append_nil] using h
          · simp only [List.take_succ_cons, List.take_zero, Debugger.requests_cons,
              Debugger.requests, ite_self, List.append_nil, List.nil_append]
      | succ index =>
          rw [List.getElem?_cons_succ] at hround
          cases hgoes : turn.goesOn with
          | true =>
              rw [hgoes, if_pos rfl] at hround
              obtain ⟨next, hnext, hanswer, hbefore, hrequests⟩ := ih hafter hround
              refine ⟨next, hnext, hanswer, ?_, ?_⟩
              · rwa [List.take_succ_cons, Debugger.requests_cons, hanswered, hgoes, if_pos rfl,
                  ← List.append_assoc]
              · rw [List.take_succ_cons, List.take_succ_cons, Debugger.requests_cons,
                  Debugger.requests_cons, hanswered, hgoes, if_pos rfl, if_pos rfl, hrequests,
                  List.append_assoc]
          | false =>
              rw [hgoes, if_neg Bool.false_ne_true] at hround
              cases hround

end Tracking

/-! ## What `list` shows -/

/-- A text shows the source at an address of a listing: the window around the line that the address
was assembled from, row by row with two lines on either side, or a line that says that there is no
such window. -/
structure ShowsSource (document : Listing.Document) (address : UInt16) (text : String) : Prop where
  window : ∀ window, document.windowAt? address Listing.defaultRadius = some window →
    text = window.render
  rows : ∀ origin texts, document.origin? address = some origin →
    document.source? origin.file = some texts → origin.line < texts.size →
      ∃ window : Listing.Window, window.Shows texts origin.line 2 ∧
        text.toList = window.rows.flatMap (· ++ ['\n'])
  missing : document.windowAt? address Listing.defaultRadius = none →
    text = "No source for " ++ renderAddress address ++ "\n"

theorem Debugger.showsSource_sourceText {debugger : Debugger} {document : Listing.Document}
    (h : debugger.listing = some document) (address : UInt16) :
    ShowsSource document address (debugger.sourceText address) := by
  have hwindow : ∀ window, document.windowAt? address Listing.defaultRadius = some window →
      debugger.sourceText address = window.render := by
    intro window hwindow
    simp only [sourceText, h, hwindow]
  refine ⟨hwindow, ?_, ?_⟩
  · intro origin texts horigin htexts hline
    have hexists : Listing.Window.around? texts origin.line Listing.defaultRadius ≠ none := by
      rw [ne_eq, Listing.Window.around?_eq_none_iff]
      exact Nat.not_le_of_lt hline
    obtain ⟨window, hfound⟩ := Option.ne_none_iff_exists'.mp hexists
    have hshows := Listing.Window.around?_eq_some_iff.mp hfound
    have haddress : document.windowAt? address Listing.defaultRadius = some window := by
      simp only [Listing.Document.windowAt?, Listing.Document.window?, horigin, htexts,
        Option.bind_eq_bind, Option.bind_some, hfound]
    refine ⟨window, hshows, ?_⟩
    rw [hwindow window haddress, Listing.Window.toList_render hshows]
  · intro hmissing
    simp only [sourceText, h, hmissing]

/-- The round shows the source at an address. -/
def Round.Prints (round : Round) (document : Listing.Document) (address : UInt16) : Prop :=
  ∃ text, round.turn = .proceed text ∧ ShowsSource document address text

theorem Round.Prints.turn_of_printed {round : Round} {document : Listing.Document}
    {address : UInt16} {printed : String} (h : round.Prints document address)
    (hprinted : (document.windowAt? address Listing.defaultRadius).map Listing.Window.render =
      some printed) : round.turn = .proceed printed := by
  obtain ⟨text, hturn, hshows⟩ := h
  obtain ⟨window, hwindow, rfl⟩ := Option.map_eq_some_iff.mp hprinted
  rw [hturn, hshows.window window hwindow]

theorem Round.Prints.turn_of_missing {round : Round} {document : Listing.Document}
    {address : UInt16} (h : round.Prints document address)
    (hmissing : document.windowAt? address Listing.defaultRadius = none) :
    round.turn = .proceed ("No source for " ++ renderAddress address ++ "\n") := by
  obtain ⟨text, hturn, hshows⟩ := h
  rw [hturn, hshows.missing hmissing]

/-- The round shows the source at an address and does nothing else. -/
def Round.Shows (round : Round) (document : Listing.Document) (address : UInt16) : Prop :=
  round.Prints document address ∧ round.after = round.before

/-- The round of a `list`, where `tracked` is the program counter known before it. -/
structure Round.Lists (round : Round) (document : Listing.Document) (tracked : Option UInt16)
    (target : Option String) : Prop where
  shows_symbol : ∀ name symbol, target = some name → document.symbol? name = some symbol →
    round.Shows document symbol.address
  shows_number : ∀ name number, target = some name → document.symbol? name = none →
    readNumber name = .ok number → number ≤ 65535 →
      round.Shows document (UInt16.ofNat number)
  rejects : ∀ name, target = some name → document.symbol? name = none →
    (∀ number, readNumber name = .ok number → 65535 < number) →
      round.turn = .proceed ("Unknown symbol or address: " ++ name ++ "\n") ∧
        round.after = round.before
  shows_tracked : ∀ pc, target = none → tracked = some pc → round.Shows document pc
  asks : target = none → tracked = none →
    round.after = round.before.afterRequest .registers ∧ round.after.lastPc = none ∧
      ∀ registers, (round.before.session.perform .registers).1 = .ok registers →
        round.Prints document
          (UInt16.ofNat (256 * registers.bytes[4].toNat + registers.bytes[5].toNat))

theorem Debugger.targetAddress?_of_number {document : Listing.Document} {name : String}
    {number : Nat} (hsymbol : document.symbol? name = none)
    (hnumber : readNumber name = .ok number) (hbound : number ≤ 65535) :
    targetAddress? document name = some (UInt16.ofNat number) := by
  have hnarrow : narrow 65536 number = .ok number := by
    rw [narrow, if_pos (Nat.lt_succ_of_le hbound)]
  have hread : (readNumber name >>= narrow 65536) = .ok number := by
    rw [hnumber]
    exact hnarrow
  simp only [targetAddress?, hsymbol, hread]

theorem Debugger.targetAddress?_eq_none {document : Listing.Document} {name : String}
    (hsymbol : document.symbol? name = none)
    (hnumber : ∀ number, readNumber name = .ok number → 65535 < number) :
    targetAddress? document name = none := by
  have hread : ∀ number, (readNumber name >>= narrow 65536) ≠ .ok number := by
    intro number hnarrow
    cases hname : readNumber name with
    | error fault =>
        rw [hname] at hnarrow
        cases hnarrow
    | ok value =>
        have hlarge : ¬ value < 65536 := Nat.not_lt_of_le (hnumber value hname)
        rw [hname] at hnarrow
        change narrow 65536 value = .ok number at hnarrow
        rw [narrow, if_neg hlarge] at hnarrow
        cases hnarrow
  simp only [targetAddress?, hsymbol]
  split
  · next hok => exact absurd hok (hread _)
  · rfl

theorem Round.lists {round : Round} {line : String} {target : Option String}
    {document : Listing.Document} (hanswer : round.before.answer line = (round.turn, round.after))
    (hline : readLine line = .ok (some (.list target)))
    (hlisting : round.before.listing = some document) :
    round.Lists document round.before.lastPc target := by
  have hround : (round.turn, round.after) =
      (.ofOutcome false (round.before.list target).1, (round.before.list target).2) := by
    rw [← hanswer]
    exact round.before.answer_of_command hline
  obtain ⟨hturn, hafter⟩ := Prod.mk.inj hround
  have hprints : ∀ address, round.turn = .proceed (round.before.sourceText address) →
      round.Prints document address := by
    intro address htext
    exact ⟨_, htext, Debugger.showsSource_sourceText hlisting address⟩
  constructor
  · rintro name symbol rfl hsymbol
    have haddress : Debugger.targetAddress? document name = some symbol.address := by
      simp only [Debugger.targetAddress?, hsymbol]
    rw [Debugger.list_of_target name hlisting, haddress] at hturn hafter
    exact ⟨hprints _ hturn, hafter⟩
  · rintro name number rfl hsymbol hnumber hbound
    have haddress := Debugger.targetAddress?_of_number hsymbol hnumber hbound
    rw [Debugger.list_of_target name hlisting, haddress] at hturn hafter
    exact ⟨hprints _ hturn, hafter⟩
  · rintro name rfl hsymbol hnumber
    have haddress := Debugger.targetAddress?_eq_none hsymbol hnumber
    rw [Debugger.list_of_target name hlisting, haddress] at hturn hafter
    exact ⟨hturn, hafter⟩
  · rintro pc rfl hpc
    rw [Debugger.list_of_lastPc hlisting hpc] at hturn hafter
    exact ⟨hprints _ hturn, hafter⟩
  · rintro rfl hpc
    rw [Debugger.list_of_no_lastPc hlisting hpc] at hturn hafter
    refine ⟨hafter, ?_, ?_⟩
    · rw [hafter]
      exact hpc
    · intro registers hregisters
      apply hprints
      rw [hturn, hregisters, Nat.mul_comm]
      rfl

/-! ## Whole runs -/

/-- The steps of a run behind its first one are the rounds that follow the query of the state. -/
theorem tail_debug {listing : Option Listing.Document} {stream : Stream}
    (hopen : (Session.connect stream).1 = .ok ())
    (hgoes : ({ session := (Session.connect stream).2, listing } :
      Debugger).queryState.1.goesOn = true) (lines : List String) :
    (debug listing stream lines).1.tail =
      (rounds ({ session := (Session.connect stream).2, listing } : Debugger).queryState.2
        lines).map Round.step := by
  rcases hconnect : Session.connect stream with ⟨outcome, session⟩
  rw [hconnect] at hopen hgoes
  obtain rfl : outcome = .ok () := hopen
  dsimp only at hgoes
  simp only [debug, hconnect, hgoes, if_true, List.tail_cons]

/-- At every line of a run the tracked program counter is the address of the latest stop reply that
carried one since the latest reset, and `list` shows the source there, reads the registers if there
is none, and goes by the listing and by numbers for a target. -/
theorem rounds_track (listing : Option Listing.Document) (stream : Stream) (lines : List String) :
    let opened := (Session.connect stream).2
    let first := ({ session := opened, listing } : Debugger).queryState.2
    let made (count : Nat) := .control .query :: first.requests (lines.take count)
    ((Session.connect stream).1 = .ok () →
        ({ session := opened, listing } : Debugger).queryState.1.goesOn = true →
          (debug listing stream lines).1.tail = (rounds first lines).map Round.step) ∧
      Tracks opened listing (made 0) first ∧
      ∀ (index : Nat) (round : Round), (rounds first lines)[index]? = some round →
        ∃ line, lines[index]? = some line ∧
          made (index + 1) = made index ++ (round.before.lineRequest? line).toList ∧
          Tracks opened listing (made index) round.before ∧
          Tracks opened listing (made (index + 1)) round.after ∧
          ∀ document target, listing = some document → readLine line = .ok (some (.list target)) →
            round.Lists document (latestAddress? (opened.run (made index)).1) target := by
  intro opened first made
  have hfirst : Tracks opened listing [.control .query] first := by
    have hopened : Tracks opened listing [] { session := opened, listing } := ⟨rfl, rfl, rfl⟩
    have hquery := hopened.afterRequest (.control .query)
    simp only [first, Debugger.queryState_eq]
    exact hquery
  refine ⟨fun hopen hgoes => tail_debug hopen hgoes lines, hfirst, ?_⟩
  intro index round hround
  obtain ⟨line, hline, hanswer, hbefore, hrequests⟩ := hfirst.round hround
  have hmade : made (index + 1) = made index ++ (round.before.lineRequest? line).toList := by
    simp only [made, hrequests, List.cons_append]
  have hafter : Tracks opened listing (made (index + 1)) round.after := by
    have hnext := hbefore.answer line
    rw [hanswer] at hnext
    rw [hmade]
    exact hnext
  refine ⟨line, hline, hmade, hbefore, hafter, ?_⟩
  intro document target hdocument hlist
  have hlists := Round.lists hanswer hlist (hbefore.listing_eq.trans hdocument)
  rwa [hbefore.lastPc_eq] at hlists

/-- A target that stops at `8000` and, after a step, at `8002`, and whose program counter is `8001`
when its registers are read. -/
def stepping : Stream where
  events := ["T05048000", "T05048002", "00112233800130"].map fun text =>
    .data (encode (Text.encodeUtf8 text))

def steppingSource : Option Listing.Document :=
  (Listing.Document.parse ("Source: main\n0:8000 CA go: dex\n0:8001 9A : txs\n" ++
    "0:8002 EA : nop\n0:8003 60 : rts\n\nSymbols by name:\ngo A:8000\n")).toOption

def steppingLines : List String :=
  ["s", "l", "l go", "l 0xabcd", "l stop", "r", "l"]

/-- The debugger at its first prompt. -/
def steppingDebugger : Debugger :=
  ({ session := (Session.connect stepping).2, listing := steppingSource } : Debugger).queryState.2

/-- The calls before a line, and the session that they lead to. -/
def steppingCalls (index : Nat) : List Session.Step × Session :=
  (Session.connect stepping).2.run
    (.control .query :: steppingDebugger.requests (steppingLines.take index))

/-- The texts that `list` shows behind a step, for a symbol, for a number, for neither, and behind a
reset. -/
theorem rounds_track_stepping :
    let rounds := rounds steppingDebugger steppingLines
    let turns := rounds.map Round.turn
    (debug steppingSource stepping steppingLines).1.tail = rounds.map Round.step ∧
      turns[1]? = some (.proceed
        "       1  dex\n       2  txs\n=>     3  nop\n       4  rts\n") ∧
      turns[2]? = some (.proceed "=>     1  dex\n       2  txs\n       3  nop\n") ∧
      turns[3]? = some (.proceed "No source for 0xABCD\n") ∧
      turns[4]? = some (.proceed "Unknown symbol or address: stop\n") ∧
      turns[6]? = some (.proceed
        "       1  dex\n=>     2  txs\n       3  nop\n       4  rts\n") := by
  obtain ⟨hopen, hgoes, hlength, hpc, hforgotten, hregisters⟩ :
      (Session.connect stepping).1 = .ok () ∧
      ({ session := (Session.connect stepping).2, listing := steppingSource } :
        Debugger).queryState.1.goesOn = true ∧
      (rounds steppingDebugger steppingLines).length = 7 ∧
      latestAddress? (steppingCalls 1).1 = some 0x8002 ∧
      latestAddress? (steppingCalls 6).1 = none ∧
      ((steppingCalls 6).2.perform .registers).1 =
        .ok ⟨#v[0x00, 0x11, 0x22, 0x33, 0x80, 0x01, 0x30]⟩ := by
    decide +kernel
  obtain ⟨document, hdocument, hsymbol, hnumber, hstop, hmissing, hwindow₀, hwindow₁, hwindow₂⟩ :
      ∃ document ∈ steppingSource,
        (document.symbol? "go").map (·.address) = some 0x8000 ∧
        document.symbol? "0xabcd" = none ∧ document.symbol? "stop" = none ∧
        document.windowAt? 0xABCD Listing.defaultRadius = none ∧
        (document.windowAt? 0x8000 Listing.defaultRadius).map Listing.Window.render =
          some "=>     1  dex\n       2  txs\n       3  nop\n" ∧
        (document.windowAt? 0x8001 Listing.defaultRadius).map Listing.Window.render =
          some "       1  dex\n=>     2  txs\n       3  nop\n       4  rts\n" ∧
        (document.windowAt? 0x8002 Listing.defaultRadius).map Listing.Window.render =
          some "       1  dex\n       2  txs\n=>     3  nop\n       4  rts\n" := by
    decide +kernel
  rw [Option.mem_def] at hdocument
  obtain ⟨htail, -, htrack⟩ := rounds_track steppingSource stepping steppingLines
  intro rounds turns
  have hround : ∀ index < 7, ∀ target,
      steppingLines[index]?.map readLine = some (.ok (some (.list target))) →
        ∃ round : Round, turns[index]? = some round.turn ∧
          round.before.session = (steppingCalls index).2 ∧
          round.Lists document (latestAddress? (steppingCalls index).1) target := by
    intro index hindex target hread
    have hfound := List.getElem?_eq_getElem (hlength ▸ hindex)
    obtain ⟨line, hline, -, hbefore, -, hlists⟩ := htrack index _ hfound
    rw [hline] at hread
    refine ⟨_, ?_, hbefore.session_eq, hlists document target hdocument (Option.some.inj hread)⟩
    rw [List.getElem?_map, hfound, Option.map_some]
  refine ⟨htail hopen hgoes, ?_, ?_, ?_, ?_, ?_⟩
  · obtain ⟨round, hturn, -, hlists⟩ := hround 1 (by decide) none (by decide)
    have hshows := hlists.shows_tracked 0x8002 rfl hpc
    rw [hturn, hshows.1.turn_of_printed hwindow₂]
  · obtain ⟨round, hturn, -, hlists⟩ := hround 2 (by decide) (some "go") (by decide)
    obtain ⟨symbol, hfound, haddress⟩ := Option.map_eq_some_iff.mp hsymbol
    have hshows := hlists.shows_symbol "go" symbol rfl hfound
    rw [haddress] at hshows
    rw [hturn, hshows.1.turn_of_printed hwindow₀]
  · obtain ⟨round, hturn, -, hlists⟩ := hround 3 (by decide) (some "0xabcd") (by decide)
    have hshows := hlists.shows_number "0xabcd" 0xABCD rfl hnumber (by decide) (by decide)
    rw [hturn, hshows.1.turn_of_missing hmissing]
    decide +kernel
  · obtain ⟨round, hturn, -, hlists⟩ := hround 4 (by decide) (some "stop") (by decide)
    have hword : readNumber "stop" = .error (.invalidValue "stop" .invalidDigit) := by decide
    have hrejects := hlists.rejects "stop" rfl hstop (by simp [hword])
    rw [hturn, hrejects.1]
    rfl
  · obtain ⟨round, hturn, hsession, hlists⟩ := hround 6 (by decide) none (by decide)
    obtain ⟨-, -, hasks⟩ := hlists.asks rfl hforgotten
    have hprints := hasks _ (hsession ▸ hregisters)
    rw [hturn, hprints.turn_of_printed hwindow₁]

end RemoteDebugger.Prompt
