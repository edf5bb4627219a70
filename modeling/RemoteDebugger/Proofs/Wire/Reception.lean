import RemoteDebugger.Proofs.Wire.History

/-!
# The history of a receive

A receive is two nested loops that can end at each of their reads and writes.  `Link.Receives`
flattens them: one case for each way to go on and one for each point at which a receive can end.
`Link.receiveHistory` computes the history of a receive, and `receives_receiveHistory` shows that
every receive is an instance of `Receives`.  What all receives have in common is then shown by
induction on that relation, without a look at the loops.
-/

namespace RemoteDebugger

/-- The value of a successful outcome, and nothing otherwise. -/
def Outcome.toList {ε α : Type} : Outcome ε α → List α
  | .ok value => [value]
  | _ => []

namespace Wire.Link

/-! ## The histories of the two loops -/

def takeHistory (link : Link) : List Event :=
  match _h : extract? link.buffer with
  | none => []
  | some (frame, rest) =>
      .remove (link.buffer.take frame.consumed) frame ::
        .write [frame.acknowledgement] (link.stream.write [frame.acknowledgement]).1 ::
          match link.stream.write [frame.acknowledgement], frame.intact with
          | (.ok (), stream), false => takeHistory ⟨stream, rest⟩
          | _, _ => []
termination_by link.buffer.length
decreasing_by exact extract?_rest_lt _h

def receiveHistory (link : Link) : List Event :=
  link.takeHistory ++
    match _h : link.takeBuffered with
    | (.ok none, after) =>
        .read after.stream.read.1 ::
          match _hfill : after.fill with
          | (.ok (), filled) => receiveHistory filled
          | _ => []
    | _ => []
termination_by link.stream.unread
decreasing_by
  -- `takeBuffered` writes but never reads, so the stream shrinks by what `fill` takes
  have hevents : after.stream.events = link.stream.events := by
    simpa [_h] using events_takeBuffered link
  have hlt := unread_fill_lt _hfill
  simpa [Stream.unread, hevents] using hlt

theorem takeHistory_of_none {link : Link} (h : extract? link.buffer = none) :
    link.takeHistory = [] := by
  rw [takeHistory]
  split
  · rfl
  · next hsome => simp [h] at hsome

theorem takeHistory_of_some {link : Link} {frame : Frame} {rest : Bytes}
    (h : extract? link.buffer = some (frame, rest)) :
    link.takeHistory =
      .remove (link.buffer.take frame.consumed) frame ::
        .write [frame.acknowledgement] (link.stream.write [frame.acknowledgement]).1 ::
          match link.stream.write [frame.acknowledgement], frame.intact with
          | (.ok (), stream), false => takeHistory ⟨stream, rest⟩
          | _, _ => [] := by
  rw [takeHistory]
  split
  · next hnone => simp [h] at hnone
  · next hsome =>
      rw [h] at hsome
      cases hsome
      rfl

theorem receiveHistory_eq (link : Link) :
    link.receiveHistory = link.takeHistory ++
      match link.takeBuffered with
      | (.ok none, after) =>
          .read after.stream.read.1 ::
            match after.fill with
            | (.ok (), filled) => receiveHistory filled
            | _ => []
      | _ => [] := by
  rw [receiveHistory]
  congr 1
  split
  · next after htaken =>
      rw [htaken]
      dsimp only
      congr 1
      split
      · next hfill => rw [hfill]
      · next hfill =>
          split
          · next h => exact absurd h (hfill _)
          · rfl
  · next htaken =>
      split
      · next h => exact absurd h (htaken _)
      · rfl

/-! ## The loops as one relation -/

/-- A history of a receive, its outcome, and the link behind it. -/
inductive Receives : Link → List Event → Outcome Fault Bytes → Link → Prop
  | returned {link : Link} {frame : Frame} {rest : Bytes} {stream : Stream}
      (hframe : extract? link.buffer = some (frame, rest)) (hintact : frame.intact = true)
      (hwrite : link.stream.write [frame.acknowledgement] = (.ok (), stream)) :
      Receives link
        [.remove (link.buffer.take frame.consumed) frame, .write [frame.acknowledgement] (.ok ())]
        (.ok frame.payload) ⟨stream, rest⟩
  | rejected {link last : Link} {frame : Frame} {rest : Bytes} {stream : Stream}
      {later : List Event} {outcome : Outcome Fault Bytes}
      (hframe : extract? link.buffer = some (frame, rest)) (hbad : frame.intact = false)
      (hwrite : link.stream.write [frame.acknowledgement] = (.ok (), stream))
      (hlater : Receives ⟨stream, rest⟩ later outcome last) :
      Receives link
        (.remove (link.buffer.take frame.consumed) frame ::
          .write [frame.acknowledgement] (.ok ()) :: later) outcome last
  | writeFailed {link : Link} {frame : Frame} {rest : Bytes} {stream : Stream} {fault : Fault}
      (hframe : extract? link.buffer = some (frame, rest))
      (hwrite : link.stream.write [frame.acknowledgement] = (.error fault, stream)) :
      Receives link
        [.remove (link.buffer.take frame.consumed) frame,
          .write [frame.acknowledgement] (.error fault)]
        (.error fault) ⟨stream, rest⟩
  | writeStalled {link : Link} {frame : Frame} {rest : Bytes} {stream : Stream}
      (hframe : extract? link.buffer = some (frame, rest))
      (hwrite : link.stream.write [frame.acknowledgement] = (.abandoned, stream)) :
      Receives link
        [.remove (link.buffer.take frame.consumed) frame,
          .write [frame.acknowledgement] .abandoned]
        .abandoned ⟨stream, rest⟩
  | filled {link last : Link} {bytes : Bytes} {stream : Stream}
      {later : List Event} {outcome : Outcome Fault Bytes}
      (hnone : extract? link.buffer = none) (hbytes : bytes ≠ [])
      (hread : link.stream.read = (.ok bytes, stream))
      (hlater : Receives ⟨stream, link.buffer ++ bytes⟩ later outcome last) :
      Receives link (.read (.ok bytes) :: later) outcome last
  | closed {link : Link} {stream : Stream} (hnone : extract? link.buffer = none)
      (hread : link.stream.read = (.ok [], stream)) :
      Receives link [.read (.ok [])] (.error .closed) ⟨stream, link.buffer⟩
  | readFailed {link : Link} {stream : Stream} {fault : Fault}
      (hnone : extract? link.buffer = none)
      (hread : link.stream.read = (.error fault, stream)) :
      Receives link [.read (.error fault)] (.error fault) ⟨stream, link.buffer⟩
  | readStalled {link : Link} {stream : Stream} (hnone : extract? link.buffer = none)
      (hread : link.stream.read = (.abandoned, stream)) :
      Receives link [.read .abandoned] .abandoned ⟨stream, link.buffer⟩

/-- How a receive goes on and ends after its first loop. -/
def Resumes (taken : Outcome Fault (Option Bytes) × Link) (later : List Event)
    (outcome : Outcome Fault Bytes) (last : Link) : Prop :=
  match taken with
  | (.ok none, after) => Receives after later outcome last
  | (.ok (some payload), after) => later = [] ∧ outcome = .ok payload ∧ last = after
  | (.error fault, after) => later = [] ∧ outcome = .error fault ∧ last = after
  | (.abandoned, after) => later = [] ∧ outcome = .abandoned ∧ last = after

theorem extract?_of_takeBuffered {link after : Link}
    (h : link.takeBuffered = (.ok none, after)) : extract? after.buffer = none := by
  fun_induction takeBuffered link with
  | case1 link hnone =>
      cases h
      exact hnone
  | case2 => cases h
  | case3 _ _ _ _ _ _ _ ih => exact ih h
  | case4 => cases h
  | case5 => cases h

theorem receives_takeHistory_append {link last : Link} {later : List Event}
    {outcome : Outcome Fault Bytes} (h : Resumes link.takeBuffered later outcome last) :
    Receives link (link.takeHistory ++ later) outcome last := by
  fun_induction takeBuffered link with
  | case1 link hnone =>
      rw [takeHistory_of_none hnone]
      exact h
  | case2 link frame rest hsome stream hwrite hintact =>
      obtain ⟨rfl, rfl, rfl⟩ := h
      have hreceives := Receives.returned hsome hintact hwrite
      simpa [takeHistory_of_some hsome, hwrite, hintact] using hreceives
  | case3 link frame rest hsome stream hwrite hintact ih =>
      have hbad : frame.intact = false := by simpa using hintact
      have hreceives := Receives.rejected hsome hbad hwrite (ih h)
      simpa [takeHistory_of_some hsome, hwrite, hbad] using hreceives
  | case4 link frame rest hsome fault stream hwrite =>
      obtain ⟨rfl, rfl, rfl⟩ := h
      have hreceives := Receives.writeFailed hsome hwrite
      simpa [takeHistory_of_some hsome, hwrite] using hreceives
  | case5 link frame rest hsome stream hwrite =>
      obtain ⟨rfl, rfl, rfl⟩ := h
      have hreceives := Receives.writeStalled hsome hwrite
      simpa [takeHistory_of_some hsome, hwrite] using hreceives

theorem read_of_fill_ok {link filled : Link} (h : link.fill = (.ok (), filled)) :
    ∃ bytes, bytes ≠ [] ∧ link.stream.read = (.ok bytes, filled.stream) ∧
      filled.buffer = link.buffer ++ bytes := by
  unfold fill at h
  split at h
  · cases h
  · next bytes stream hne hread =>
      cases h
      refine ⟨bytes, ?_, hread, rfl⟩
      rintro rfl
      exact hne rfl
  · cases h
  · cases h

theorem read_of_fill_error {link filled : Link} {fault : Fault}
    (h : link.fill = (.error fault, filled)) :
    filled.buffer = link.buffer ∧
      (fault = .closed ∧ link.stream.read = (.ok [], filled.stream) ∨
        link.stream.read = (.error fault, filled.stream)) := by
  unfold fill at h
  split at h
  · next hread =>
      cases h
      exact ⟨rfl, Or.inl ⟨rfl, hread⟩⟩
  · cases h
  · next hread =>
      cases h
      exact ⟨rfl, Or.inr hread⟩
  · cases h

theorem read_of_fill_abandoned {link filled : Link} (h : link.fill = (.abandoned, filled)) :
    filled.buffer = link.buffer ∧ link.stream.read = (.abandoned, filled.stream) := by
  unfold fill at h
  split at h
  · cases h
  · cases h
  · cases h
  · next hread =>
      cases h
      exact ⟨rfl, hread⟩

/-- The history of a receive is one that leads to its outcome. -/
theorem receives_receiveHistory (link : Link) :
    Receives link link.receiveHistory link.receive.1 link.receive.2 := by
  fun_induction receive link with
  | case1 link payload after htaken =>
      rw [receiveHistory_eq]
      apply receives_takeHistory_append
      rw [htaken]
      exact ⟨rfl, rfl, rfl⟩
  | case2 link after htaken filled hfill ih =>
      have hnone := extract?_of_takeBuffered htaken
      obtain ⟨bytes, hbytes, hread, hbuffer⟩ := read_of_fill_ok hfill
      rw [receiveHistory_eq]
      apply receives_takeHistory_append
      simp only [htaken, hfill, hread]
      refine .filled hnone hbytes hread ?_
      rw [← hbuffer]
      exact ih
  | case3 link after htaken fault filled hfill =>
      have hnone := extract?_of_takeBuffered htaken
      obtain ⟨hbuffer, hread⟩ := read_of_fill_error hfill
      obtain ⟨stream, buffer⟩ := filled
      subst hbuffer
      rw [receiveHistory_eq]
      apply receives_takeHistory_append
      rcases hread with ⟨rfl, hread⟩ | hread
      · simp only [htaken, hfill, hread]
        exact .closed hnone hread
      · simp only [htaken, hfill, hread]
        exact .readFailed hnone hread
  | case4 link after htaken filled hfill =>
      have hnone := extract?_of_takeBuffered htaken
      obtain ⟨hbuffer, hread⟩ := read_of_fill_abandoned hfill
      obtain ⟨stream, buffer⟩ := filled
      subst hbuffer
      rw [receiveHistory_eq]
      apply receives_takeHistory_append
      simp only [htaken, hfill, hread]
      exact .readStalled hnone hread
  | case5 link fault after htaken =>
      rw [receiveHistory_eq]
      apply receives_takeHistory_append
      rw [htaken]
      exact ⟨rfl, rfl, rfl⟩
  | case6 link after htaken =>
      rw [receiveHistory_eq]
      apply receives_takeHistory_append
      rw [htaken]
      exact ⟨rfl, rfl, rfl⟩

/-! ## What all receives have in common -/

/-- Every event of a receive happened to the link as it then was. -/
theorem Receives.moves {link last : Link} {history : List Event} {outcome : Outcome Fault Bytes}
    (h : Receives link history outcome last) : Moves link history last := by
  induction h with
  | returned hframe _ hwrite => exact .remove hframe (.write hwrite (.done _))
  | rejected hframe _ hwrite _ ih => exact .remove hframe (.write hwrite ih)
  | writeFailed hframe hwrite => exact .remove hframe (.write hwrite (.done _))
  | writeStalled hframe hwrite => exact .remove hframe (.write hwrite (.done _))
  | filled _ _ hread _ ih => exact .read hread ih
  | closed _ hread =>
      refine .read hread ?_
      simpa [Event.delivered] using Moves.done _
  | readFailed _ hread =>
      refine .read hread ?_
      simpa [Event.delivered] using Moves.done _
  | readStalled _ hread =>
      refine .read hread ?_
      simpa [Event.delivered] using Moves.done _

/-- A receive attempts one acknowledgement for each frame that it removes, and writes nothing
else. -/
theorem Receives.attempted_eq {link last : Link} {history : List Event}
    {outcome : Outcome Fault Bytes} (h : Receives link history outcome last) :
    attempted history = (removed history).map fun frame => [frame.acknowledgement] := by
  induction h with
  | rejected _ _ _ _ ih => simp [Event.attempted?, Event.removed?, ih]
  | filled _ _ _ _ ih => simp [Event.attempted?, Event.removed?, ih]
  | _ => simp [Event.attempted?, Event.removed?]

/-- A receive returns the payload of the one intact frame whose acknowledgement it has written,
and none if there is no such frame. -/
theorem Receives.confirmed_eq {link last : Link} {history : List Event}
    {outcome : Outcome Fault Bytes} (h : Receives link history outcome last) :
    confirmed history = outcome.toList := by
  induction h with
  | returned _ hintact _ =>
      simp [confirmed, Event.removed?, Event.answered?, hintact, Outcome.toList]
  | rejected _ hbad _ _ ih => simpa [confirmed, Event.removed?, Event.answered?, hbad] using ih
  | filled _ _ _ _ ih => simpa [confirmed, Event.removed?, Event.answered?] using ih
  | _ => simp [confirmed, Event.removed?, Event.answered?, Outcome.toList]

theorem Receives.ne_nil {link last : Link} {history : List Event} {outcome : Outcome Fault Bytes}
    (h : Receives link history outcome last) : history ≠ [] := by
  cases h <;> simp

/-- A receive that ends at a read leaves no frame in the buffer. -/
theorem Receives.extract?_of_getLast? {link last : Link} {history : List Event}
    {outcome read : Outcome Fault Bytes} (h : Receives link history outcome last)
    (hread : history.getLast? = some (.read read)) : extract? last.buffer = none := by
  induction h with
  | returned => simp at hread
  | rejected _ _ _ hlater ih =>
      rw [List.getLast?_cons_cons, List.getLast?_cons_of_ne_nil hlater.ne_nil] at hread
      exact ih hread
  | writeFailed => simp at hread
  | writeStalled => simp at hread
  | filled _ _ _ hlater ih =>
      rw [List.getLast?_cons_of_ne_nil hlater.ne_nil] at hread
      exact ih hread
  | closed hnone => exact hnone
  | readFailed hnone => exact hnone
  | readStalled hnone => exact hnone

end Wire.Link

end RemoteDebugger
