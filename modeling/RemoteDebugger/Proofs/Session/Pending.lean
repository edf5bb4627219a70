import Mathlib.Data.List.Forall2
import RemoteDebugger.Proofs.Wire.Reception
import RemoteDebugger.Session

/-!
# The pending mark

A session marks the request that it performs and clears the mark when the request has ended, with a
reply or with an error.  The mark therefore stays only behind a request that was abandoned at a read
or a write that was not ready, and from then on it refuses every request and leaves the session as
it is.
-/

namespace RemoteDebugger

theorem Outcome.isAbandoned_andThen {ε α β : Type} (outcome : Outcome ε α) (f : α → Except ε β) :
    (outcome.andThen f).isAbandoned = outcome.isAbandoned := by
  cases outcome with
  | ok value => cases h : f value <;> simp [andThen, h, ofExcept, isAbandoned]
  | error e => rfl
  | abandoned => rfl

namespace Wire

/-- Whether a read or a write was not ready. -/
def Event.isStall : Event → Bool
  | .read .abandoned | .write _ .abandoned => true
  | _ => false

/-- A receive is abandoned where one of its reads or writes is not ready, and nowhere else. -/
theorem Link.Receives.any_isStall {link last : Link} {history : List Event}
    {outcome : Outcome Fault Bytes} (h : Receives link history outcome last) :
    history.any Event.isStall = outcome.isAbandoned := by
  induction h with
  | rejected _ _ _ _ ih => simpa [Event.isStall] using ih
  | filled _ _ _ _ ih => simpa [Event.isStall] using ih
  | _ => rfl

end Wire

namespace Session

open RemoteDebugger.Target RemoteDebugger.Wire

/-! ## The history of a request -/

def exchangeHistory (link : Link) (request : Request) : List Event :=
  .write (encode request.payload) (link.send request.payload).1 ::
    match link.send request.payload with
    | (.ok (), sent) => if request.expectsReply then sent.receiveHistory else []
    | _ => []

/-- The history of a request, which is empty if the request is refused. -/
def historyOf (session : Session) (request : Request) : List Event :=
  match request.oversize?, session.pending with
  | none, none => exchangeHistory session.link request
  | _, _ => []

def histories (session : Session) : List Request → List (List Event)
  | [] => []
  | request :: later =>
      session.historyOf request :: histories (session.perform request).2 later

theorem moves_exchangeHistory (link : Link) (request : Request) :
    Link.Moves link (exchangeHistory link request) (exchange link request).2 := by
  have hsend : Link.Moves link
      [.write (encode request.payload) (link.send request.payload).1]
      (link.send request.payload).2 := .write rfl (.done _)
  apply hsend.append
  simp only [exchange]
  rcases link.send request.payload with ⟨_ | fault | _, sent⟩
  · cases request.expectsReply with
    | true => exact (Link.receives_receiveHistory sent).moves
    | false => exact .done sent
  · exact .done sent
  · exact .done sent

theorem any_isStall_exchangeHistory (link : Link) (request : Request) :
    (exchangeHistory link request).any Event.isStall = (exchange link request).1.isAbandoned := by
  simp only [exchangeHistory, exchange, List.any_cons]
  rcases link.send request.payload with ⟨_ | fault | _, sent⟩
  · cases request.expectsReply with
    | true => exact (Link.receives_receiveHistory sent).any_isStall
    | false => rfl
  · rfl
  · rfl

/-! ## One request -/

/-- The error with which a session refuses a request while `name` is pending. -/
def refusal (name : String) (request : Request) : Error :=
  match request.oversize? with
  | some size => .requestTooLarge size
  | none => .requestPending name

theorem perform_of_pending {session : Session} {name : String} (request : Request)
    (h : session.pending = some name) :
    session.perform request = (.error (refusal name request), session) := by
  simp only [perform, refusal, h]
  cases request.oversize? <;> rfl

/-- The mark behind a request: the request itself if it was abandoned, and otherwise what it was. -/
theorem pending_perform (session : Session) (request : Request) :
    (session.perform request).2.pending =
      if (session.perform request).1.isAbandoned then some request.name else session.pending := by
  cases hpending : session.pending with
  | some name =>
      rw [perform_of_pending request hpending]
      exact hpending
  | none =>
      cases hsize : request.oversize? with
      | some size => simp [perform, hsize, hpending, Outcome.isAbandoned]
      | none => simp [perform, hsize, hpending, Outcome.isAbandoned_andThen]

theorem moves_historyOf (session : Session) (request : Request) :
    Link.Moves session.link (session.historyOf request) (session.perform request).2.link := by
  cases hpending : session.pending with
  | some name =>
      rw [perform_of_pending request hpending]
      simpa [historyOf, hpending] using Link.Moves.done session.link
  | none =>
      cases hsize : request.oversize? with
      | some size => simpa [historyOf, perform, hsize] using Link.Moves.done session.link
      | none => simpa [historyOf, perform, hsize, hpending] using moves_exchangeHistory _ request

theorem any_isStall_historyOf (session : Session) (request : Request) :
    (session.historyOf request).any Event.isStall = (session.perform request).1.isAbandoned := by
  cases hpending : session.pending with
  | some name =>
      rw [perform_of_pending request hpending]
      simp [historyOf, hpending, Outcome.isAbandoned]
  | none =>
      cases hsize : request.oversize? with
      | some size => simp [historyOf, perform, hsize, Outcome.isAbandoned]
      | none =>
          simp [historyOf, perform, hsize, hpending, Outcome.isAbandoned_andThen,
            any_isStall_exchangeHistory]

/-! ## Whole runs -/

/-- The step of a request that is refused because `name` is pending. -/
def refusedStep (name : String) (request : Request) : Step where
  request
  outcome := .error (refusal name request)
  written := []
  pending := true

/-- A session with a pending request refuses all others and stays as it is. -/
theorem run_of_pending {session : Session} {name : String} (requests : List Request)
    (h : session.pending = some name) :
    session.run requests = (requests.map (refusedStep name), session) := by
  induction requests with
  | nil => rfl
  | cons request later ih =>
      have hnothing : session.link.stream.writtenSince session.link.stream = [] := by
        simp [Stream.writtenSince]
      rw [run_cons, perform_of_pending request h, ih, List.map_cons, hnothing]
      simp [refusedStep, isPending, h]

theorem isPending_run (session : Session) (requests : List Request) :
    (session.run requests).2.isPending =
      (session.isPending || (session.run requests).1.any (·.outcome.isAbandoned)) := by
  induction requests generalizing session with
  | nil => simp [run]
  | cons request later ih =>
      have hmark := pending_perform session request
      rw [run_cons, ih, List.any_cons, ← Bool.or_assoc]
      congr 1
      simp only [isPending, hmark]
      cases (session.perform request).1.isAbandoned <;> simp

theorem moves_histories (session : Session) (requests : List Request) :
    Link.Moves session.link (session.histories requests).flatten
      (session.run requests).2.link := by
  induction requests generalizing session with
  | nil => exact .done session.link
  | cons request later ih =>
      rw [run_cons]
      exact (moves_historyOf session request).append (ih _)

theorem histories_append (session : Session) (before after : List Request) :
    session.histories (before ++ after) =
      session.histories before ++ (session.run before).2.histories after := by
  induction before generalizing session with
  | nil => rfl
  | cons request later ih =>
      rw [List.cons_append, histories, ih, run_cons]
      rfl

theorem any_isStall_histories (session : Session) (requests : List Request) :
    List.Forall₂ (fun step history => step.outcome.isAbandoned = history.any Event.isStall)
      (session.run requests).1 (session.histories requests) := by
  induction requests generalizing session with
  | nil => exact .nil
  | cons request later ih =>
      rw [run_cons]
      exact .cons (any_isStall_historyOf session request).symm (ih _)

/-- The mark is set exactly when some request has been abandoned, which happens at reads and writes
that are not ready; the first such request stays marked and blocks all later ones. -/
theorem pending_iff_abandoned (stream : Stream) (requests : List Request) :
    let opened := (connect stream).2
    let steps := (opened.run requests).1
    let last := (opened.run requests).2
    let histories := opened.histories requests
    (last.isPending = true ↔ ∃ step ∈ steps, step.outcome.isAbandoned = true) ∧
      Link.Moves opened.link histories.flatten last.link ∧
      List.Forall₂ (fun step history => step.outcome.isAbandoned = history.any Event.isStall)
        steps histories ∧
      (∀ request, last.pending = none → (last.perform request).1.isAbandoned = false →
        (last.perform request).2.pending = none) ∧
      ∀ request later, (∀ step ∈ steps, step.outcome.isAbandoned = false) →
        (last.perform request).1.isAbandoned = true →
          (last.perform request).2.pending = some request.name ∧
            (last.perform request).2.run later =
              (later.map (refusedStep request.name), (last.perform request).2) := by
  intro opened steps last histories
  have hopened : opened.isPending = false := rfl
  have hmark : last.isPending = steps.any (·.outcome.isAbandoned) := by
    have hrun := isPending_run opened requests
    rwa [hopened, Bool.false_or] at hrun
  refine ⟨?_, moves_histories opened requests, any_isStall_histories opened requests, ?_, ?_⟩
  · rw [hmark, List.any_eq_true]
  · intro request hnone hended
    rw [pending_perform, hended, hnone]
    rfl
  · intro request later _ habandoned
    have hpending : (last.perform request).2.pending = some request.name := by
      rw [pending_perform, habandoned]
      rfl
    exact ⟨hpending, run_of_pending later hpending⟩

theorem pending_of_stalled :
    let stepped := ((connect { events := [.notReady] }).2.perform (.control .step)).2
    stepped.pending = some "s" ∧
      stepped.run [.reset, .registers] =
        ([⟨.reset, .error (.requestPending "s"), [], true⟩,
          ⟨.registers, .error (.requestPending "s"), [], true⟩], stepped) := by
  have habandoned :
      ((connect { events := [.notReady] }).2.perform (.control .step)).1.isAbandoned = true := by
    decide +kernel
  obtain ⟨-, -, -, -, hblocks⟩ := pending_iff_abandoned { events := [.notReady] } []
  exact hblocks (.control .step) [.reset, .registers] (by simp [run]) habandoned

end Session

end RemoteDebugger
