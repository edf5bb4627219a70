import Mathlib.Data.List.Forall2
import RemoteDebugger.Proofs.Wire.Reception

/-!
# Accounting for bytes and frames

Over a run of any length, on a stream whose reads and writes may fail or stall at any point, every
byte delivered is either drained with a frame or still buffered, frames are removed in order, each
is acknowledged once, and each payload whose acknowledgement was written is returned once.

A frame leaves the buffer before its acknowledgement is written.  If that write fails, the frame is
gone and its payload is returned by no receive; this is the only way to lose one.
-/

namespace RemoteDebugger.Wire

namespace Link

/-- The history of one use of a link. -/
def historyOf (link : Link) : Action → List Event
  | .send payload => [.write (encode payload) (link.send payload).1]
  | .receive => link.receiveHistory

def histories (link : Link) : List Action → List (List Event)
  | [] => []
  | action :: later => link.historyOf action :: histories (link.perform action).2 later

/-- The payload that a step of a run returns, if it returns one. -/
def Step.returned : Step → List Bytes
  | ⟨.send _, _, _⟩ => []
  | ⟨.receive, outcome, _⟩ => outcome.toList

/-- What a step owes to its history: a send attempts its frame and touches no other, a receive
attempts one acknowledgement for each frame that it removes, and the payloads returned are those
whose acknowledgement was written. -/
structure Step.Settles (step : Step) (history : List Event) : Prop where
  attempted_eq : attempted history =
    match step.action with
    | .send payload => [encode payload]
    | .receive => (removed history).map fun frame =>
        if frame.intact then [accepted] else [rejected]
  removed_of_send : ∀ payload, step.action = .send payload → removed history = []
  confirmed_eq : confirmed history = step.returned

/-! ## One step -/

theorem historyOf_ne_nil (link : Link) (action : Action) : link.historyOf action ≠ [] := by
  cases action with
  | send payload => exact List.cons_ne_nil _ _
  | receive => exact (receives_receiveHistory link).ne_nil

theorem moves_historyOf (link : Link) (action : Action) :
    Moves link (link.historyOf action) (link.perform action).2 := by
  cases action with
  | send payload => exact .write rfl (.done _)
  | receive => exact (receives_receiveHistory link).moves

theorem settles_historyOf (link : Link) (action : Action) (written : Bytes) :
    Step.Settles ⟨action, (link.perform action).1, written⟩ (link.historyOf action) := by
  cases action with
  | send payload =>
      refine ⟨rfl, fun _ _ => rfl, ?_⟩
      simp [historyOf, confirmed, Event.removed?, Step.returned]
  | receive =>
      have hreceives := receives_receiveHistory link
      refine ⟨?_, ?_, hreceives.confirmed_eq⟩
      · refine hreceives.attempted_eq.trans (List.map_congr_left fun frame _ => ?_)
        simp only [Frame.acknowledgement]
        split <;> rfl
      · intro payload hsend
        cases hsend

theorem extract?_of_getLast?_historyOf {link : Link} {action : Action}
    {read : Outcome Fault Bytes}
    (hread : (link.historyOf action).getLast? = some (.read read)) :
    extract? (link.perform action).2.buffer = none := by
  cases action with
  | send payload => simp [historyOf] at hread
  | receive => exact (receives_receiveHistory link).extract?_of_getLast? hread

/-! ## Whole runs -/

theorem moves_histories (link : Link) (actions : List Action) :
    Moves link (link.histories actions).flatten (link.run actions).2 := by
  induction actions generalizing link with
  | nil => exact .done link
  | cons action later ih =>
      rw [run_cons]
      exact (moves_historyOf link action).append (ih _)

theorem settles_histories (link : Link) (actions : List Action) :
    List.Forall₂ Step.Settles (link.run actions).1 (link.histories actions) := by
  induction actions generalizing link with
  | nil => exact .nil
  | cons action later ih =>
      rw [run_cons]
      exact .cons (settles_historyOf link action _) (ih _)

theorem extract?_of_getLast?_histories {link : Link} {actions : List Action}
    {read : Outcome Fault Bytes}
    (hread : (link.histories actions).flatten.getLast? = some (.read read)) :
    extract? (link.run actions).2.buffer = none := by
  induction actions generalizing link with
  | nil => simp [histories] at hread
  | cons action later ih =>
      rw [run_cons]
      cases later with
      | nil =>
          have hread' : (link.historyOf action).getLast? = some (.read read) := by
            simpa [histories] using hread
          exact extract?_of_getLast?_historyOf hread'
      | cons next rest =>
          have hlater : ((link.perform action).2.histories (next :: rest)).flatten ≠ [] := by
            simp [histories, historyOf_ne_nil]
          apply ih
          rwa [histories, List.flatten_cons, List.getLast?_append_of_ne_nil _ hlater] at hread

/-- Every byte and every frame of a run is accounted for, whatever its reads and writes meet. -/
theorem run_accounted (stream : Stream) (actions : List Action) :
    let opened := (start stream).2
    let last := (opened.run actions).2
    let histories := opened.histories actions
    let history := histories.flatten
    Moves opened history last ∧
      delivered history = drained history ++ last.buffer ∧
      removed history <+: (drain (delivered history)).1 ∧
      List.Forall₂ Step.Settles (opened.run actions).1 histories ∧
      ∀ outcome, history.getLast? = some (.read outcome) →
        removed history = (drain (delivered history)).1 := by
  intro opened last histories history
  have hmoves : Moves opened history last := moves_histories opened actions
  have hbuffer : opened.buffer = [] := rfl
  have hdrain : (drain (delivered history)).1 = removed history ++ (drain last.buffer).1 := by
    simpa [hbuffer] using hmoves.drain_append []
  refine ⟨hmoves, ?_, ?_, settles_histories opened actions, ?_⟩
  · simpa [hbuffer] using hmoves.buffer_append_delivered
  · rw [hdrain]
    exact List.prefix_append _ _
  · intro outcome hread
    have hnone : extract? last.buffer = none := extract?_of_getLast?_histories hread
    rw [hdrain, drain_of_none hnone, List.append_nil]

end Link

end RemoteDebugger.Wire
