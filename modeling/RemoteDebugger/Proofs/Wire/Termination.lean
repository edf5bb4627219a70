import RemoteDebugger.Proofs.Session.Ready
import RemoteDebugger.Proofs.Wire.Accounting

/-!
# Receives that end

A receive goes on as long as it rejects frames and its reads deliver bytes.  Both are limited: a
frame takes at least four bytes from the buffer, and a read takes something away from what the
stream still holds.  `Link.turn` is one turn of the two loops of a receive, and `Link.work` bounds
the number of turns whatever the other side sends.

An acknowledgement is written behind the removal of a frame.  It is thereby paid for with four bytes
that have been read, at every point of every run.
-/

namespace RemoteDebugger.Wire

/-! ## What a stream still holds -/

def ReadEvent.bytes : ReadEvent → Bytes
  | .data bytes => bytes
  | _ => []

/-- The number of reads that it takes to get past an event. -/
def ReadEvent.readCount : ReadEvent → Nat
  | .data bytes => (bytes.length - 1) / readLimit + 1
  | _ => 1

theorem ReadEvent.readCount_data (bytes : Bytes) :
    (data bytes).readCount = (bytes.length - 1) / 1024 + 1 := rfl

namespace Stream

/-- The bytes in all that reads have not met yet. -/
def unreadBytes (stream : Stream) : Bytes :=
  stream.events.flatMap ReadEvent.bytes

/-- The number of reads after which a stream has nothing more for them. -/
def readsLeft (stream : Stream) : Nat :=
  stream.events.foldr (fun event count => event.readCount + count) 0

/-- A read takes its bytes from the front of those that are left. -/
theorem unreadBytes_of_read {stream after : Stream} {outcome : Outcome Fault Bytes}
    (h : stream.read = (outcome, after)) :
    stream.unreadBytes = (Event.read outcome).delivered ++ after.unreadBytes := by
  unfold Stream.read at h
  split at h
  · next hevents =>
      cases h
      cases stream.stalls <;> simp [unreadBytes, hevents, Event.delivered]
  · next hevents =>
      cases h
      simp [unreadBytes, hevents, ReadEvent.bytes, Event.delivered]
  · next hevents =>
      cases h
      simp [unreadBytes, hevents, ReadEvent.bytes, Event.delivered]
  · next bytes later hevents =>
      cases h
      have hwhole := List.take_append_drop readLimit bytes
      split
      · next hrest =>
          rw [List.isEmpty_iff.mp hrest, List.append_nil] at hwhole
          simp [unreadBytes, hevents, ReadEvent.bytes, Event.delivered, hwhole]
      · simp only [unreadBytes, hevents, List.flatMap_cons, ReadEvent.bytes, Event.delivered]
        rw [← List.append_assoc, hwhole]

/-- A read is one of those that are left, and delivers nothing if there are none. -/
theorem readsLeft_of_read {stream after : Stream} {outcome : Outcome Fault Bytes}
    (h : stream.read = (outcome, after)) :
    after.readsLeft = stream.readsLeft - 1 ∧
      ((Event.read outcome).delivered ≠ [] → 0 < stream.readsLeft) := by
  unfold Stream.read at h
  split at h
  · next hevents =>
      cases h
      cases stream.stalls <;> simp [readsLeft, hevents, Event.delivered]
  · next hevents =>
      cases h
      simp [readsLeft, hevents, ReadEvent.readCount, Event.delivered]
  · next hevents =>
      cases h
      simp [readsLeft, hevents, ReadEvent.readCount, Event.delivered]
  · next bytes later hevents =>
      cases h
      have hcount : stream.readsLeft = (bytes.length - 1) / 1024 + 1 +
          later.foldr (fun event count => event.readCount + count) 0 := by
        rw [readsLeft, hevents, List.foldr_cons, ReadEvent.readCount_data]
      refine ⟨?_, fun _ => by omega⟩
      rw [hcount]
      split
      · next hrest =>
          have hshort : bytes.length ≤ 1024 := by simpa [readLimit] using hrest
          simp only [readsLeft]
          omega
      · next hrest =>
          have hlong : 1024 < bytes.length := by simpa [readLimit] using hrest
          rw [readsLeft, List.foldr_cons, ReadEvent.readCount_data, List.length_drop, readLimit]
          omega

theorem unread_of_write {stream after : Stream} {bytes : Bytes} {outcome : Outcome Fault Unit}
    (h : stream.write bytes = (outcome, after)) :
    after.unreadBytes = stream.unreadBytes ∧ after.readsLeft = stream.readsLeft := by
  have hevents := events_of_write h
  exact ⟨by rw [unreadBytes, hevents, unreadBytes], by rw [readsLeft, hevents, readsLeft]⟩

end Stream

/-! ## Reads and acknowledgements in a history -/

def Event.isRead : Event → Bool
  | .read _ => true
  | _ => false

/-- Whether a write is one of an acknowledgement, which is a single byte. -/
def Event.isAcknowledgement : Event → Bool
  | .write [byte] _ => byte == accepted || byte == rejected
  | _ => false

namespace Link

/-! ## Turns of the loops -/

/-- What comes of one turn of the loops of a receive. -/
inductive Turn where
  | goesOn (link : Link)
  | ended (outcome : Outcome Fault Bytes) (link : Link)
  deriving DecidableEq, Repr

/-- One turn of the loops of a receive: it takes a frame from the buffer and acknowledges it, or
reads once if there is no frame. -/
def turn (link : Link) : Turn :=
  match extract? link.buffer with
  | some (frame, rest) =>
      match link.stream.write [frame.acknowledgement] with
      | (.ok (), stream) =>
          if frame.intact then .ended (.ok frame.payload) ⟨stream, rest⟩
          else .goesOn ⟨stream, rest⟩
      | (.error fault, stream) => .ended (.error fault) ⟨stream, rest⟩
      | (.abandoned, stream) => .ended .abandoned ⟨stream, rest⟩
  | none =>
      match link.fill with
      | (.ok (), filled) => .goesOn filled
      | (.error fault, filled) => .ended (.error fault) filled
      | (.abandoned, filled) => .ended .abandoned filled

/-- The loops of a receive, stopped after so many turns if they have not ended before. -/
def turns : (count : Nat) → Link → Turn
  | 0, link => .goesOn link
  | count + 1, link =>
      match link.turn with
      | .goesOn after => turns count after
      | .ended outcome last => .ended outcome last

/-- A bound for the turns that are still to go on: the reads that are left and the frames that fit
in the bytes at hand and in those to come. -/
def work (link : Link) : Nat :=
  link.stream.readsLeft + (link.buffer.length + link.stream.unreadBytes.length) / 4

/-- Every turn that goes on leaves less work. -/
theorem work_lt_of_turn {link after : Link} (h : link.turn = .goesOn after) :
    after.work < link.work := by
  unfold turn at h
  split at h
  · next frame rest hframe =>
      obtain ⟨hfour, hlength⟩ := extract?_length hframe
      split at h
      · next stream hwrite =>
          obtain ⟨hbytes, hreads⟩ := Stream.unread_of_write hwrite
          split at h
          · cases h
          · cases h
            simp only [work, hbytes, hreads]
            omega
      · cases h
      · cases h
  · split at h
    · next filled hfill =>
        cases h
        obtain ⟨bytes, hbytes, hread, hbuffer⟩ := read_of_fill_ok hfill
        obtain ⟨hreads, hpos⟩ := Stream.readsLeft_of_read hread
        have hleft := hpos hbytes
        have hunread := congrArg List.length (Stream.unreadBytes_of_read hread)
        simp only [Event.delivered, List.length_append] at hunread
        simp only [work, hbuffer, hreads, List.length_append]
        omega
    · cases h
    · cases h

theorem turns_of_ended {link last : Link} {outcome : Outcome Fault Bytes}
    (h : link.turn = .ended outcome last) (count : Nat) (hcount : link.work < count) :
    link.turns count = .ended outcome last := by
  obtain ⟨fewer, rfl⟩ := Nat.exists_eq_add_one_of_ne_zero (Nat.ne_zero_of_lt hcount)
  rw [turns, h]

theorem turns_of_goesOn {link after last : Link} {outcome : Outcome Fault Bytes}
    (h : link.turn = .goesOn after)
    (hlater : ∀ count, after.work < count → after.turns count = .ended outcome last)
    (count : Nat) (hcount : link.work < count) : link.turns count = .ended outcome last := by
  obtain ⟨fewer, rfl⟩ := Nat.exists_eq_add_one_of_ne_zero (Nat.ne_zero_of_lt hcount)
  have hless := work_lt_of_turn h
  rw [turns, h]
  exact hlater fewer (by omega)

/-- With enough turns the loops end as the receive does. -/
theorem Receives.turns_eq {link last : Link} {history : List Event}
    {outcome : Outcome Fault Bytes} (h : Receives link history outcome last) :
    ∀ count, link.work < count → link.turns count = .ended outcome last := by
  induction h with
  | returned hframe hintact hwrite =>
      exact turns_of_ended (by simp [turn, hframe, hintact, hwrite])
  | rejected hframe hbad hwrite _ ih =>
      exact turns_of_goesOn (by simp [turn, hframe, hbad, hwrite]) ih
  | writeFailed hframe hwrite => exact turns_of_ended (by simp [turn, hframe, hwrite])
  | writeStalled hframe hwrite => exact turns_of_ended (by simp [turn, hframe, hwrite])
  | filled hnone hbytes hread _ ih =>
      obtain ⟨b, later, rfl⟩ := List.exists_cons_of_ne_nil hbytes
      exact turns_of_goesOn (by simp [turn, hnone, fill, hread]) ih
  | closed hnone hread => exact turns_of_ended (by simp [turn, hnone, fill, hread])
  | readFailed hnone hread => exact turns_of_ended (by simp [turn, hnone, fill, hread])
  | readStalled hnone hread => exact turns_of_ended (by simp [turn, hnone, fill, hread])

/-! ## What a receive takes from its stream -/

/-- Reads take their bytes from the front of those that the stream holds, and nothing else takes
any. -/
theorem Moves.unreadBytes_eq {link last : Link} {history : List Event}
    (h : Moves link history last) :
    link.stream.unreadBytes = delivered history ++ last.stream.unreadBytes := by
  induction h with
  | done => rfl
  | read hread _ ih =>
      rw [Stream.unreadBytes_of_read hread, ih, delivered_cons, List.append_assoc]
  | write hwrite _ ih =>
      rw [← (Stream.unread_of_write hwrite).1, ih]
      rfl
  | remove _ _ ih => exact ih

/-- A receive reads no more often than the stream has something for it, and once more at its end. -/
theorem Receives.countP_isRead_le {link last : Link} {history : List Event}
    {outcome : Outcome Fault Bytes} (h : Receives link history outcome last) :
    history.countP Event.isRead + last.stream.readsLeft ≤ link.stream.readsLeft + 1 := by
  induction h with
  | returned _ _ hwrite | writeFailed _ hwrite | writeStalled _ hwrite =>
      have hreads := (Stream.unread_of_write hwrite).2
      simp [Event.isRead, hreads]
  | rejected _ _ hwrite _ ih =>
      have hreads := (Stream.unread_of_write hwrite).2
      simpa [Event.isRead, hreads] using ih
  | filled _ hbytes hread _ ih =>
      obtain ⟨hreads, hpos⟩ := Stream.readsLeft_of_read hread
      have hleft := hpos hbytes
      simp only [hreads] at ih
      simp only [List.countP_cons, Event.isRead, if_true]
      omega
  | closed _ hread | readFailed _ hread | readStalled _ hread =>
      have hreads := (Stream.readsLeft_of_read hread).1
      simp only [List.countP_singleton, Event.isRead, if_true, hreads]
      omega

/-! ## Removals -/

/-- A history can be followed up to any of its points. -/
theorem Moves.exists_of_append {first last : Link} {before after : List Event}
    (h : Moves first (before ++ after) last) :
    ∃ middle, Moves first before middle ∧ Moves middle after last := by
  induction before generalizing first with
  | nil => exact ⟨first, .done first, h⟩
  | cons event before ih =>
      cases h with
      | read hread hlater =>
          obtain ⟨middle, hbefore, hafter⟩ := ih hlater
          exact ⟨middle, .read hread hbefore, hafter⟩
      | write hwrite hlater =>
          obtain ⟨middle, hbefore, hafter⟩ := ih hlater
          exact ⟨middle, .write hwrite hbefore, hafter⟩
      | remove hframe hlater =>
          obtain ⟨middle, hbefore, hafter⟩ := ih hlater
          exact ⟨middle, .remove hframe hbefore, hafter⟩

theorem length_take_consumed {buffer rest : Bytes} {frame : Frame}
    (h : extract? buffer = some (frame, rest)) :
    (buffer.take frame.consumed).length = frame.consumed := by
  obtain ⟨-, hlength⟩ := extract?_length h
  rw [List.length_take]
  omega

/-- A removal takes what its frame consumes, at least four bytes, from the front of what is then in
the buffer. -/
theorem Moves.exists_of_remove {link last : Link} {before after : List Event} {piece : Bytes}
    {frame : Frame} (h : Moves link (before ++ .remove piece frame :: after) last) :
    4 ≤ frame.consumed ∧ piece.length = frame.consumed ∧
      ∃ rest, link.buffer ++ delivered before = drained before ++ (piece ++ rest) := by
  obtain ⟨middle, hbefore, hafter⟩ := h.exists_of_append
  cases hafter with
  | @remove _ _ frame rest _ hframe _ =>
      refine ⟨(extract?_length hframe).1, length_take_consumed hframe, rest, ?_⟩
      rw [take_consumed_append hframe, hbefore.buffer_append_delivered]

theorem Moves.four_mul_length_removed_le {link last : Link} {history : List Event}
    (h : Moves link history last) : 4 * (removed history).length ≤ (drained history).length := by
  induction h with
  | done => simp
  | read _ _ ih => simpa [Event.removed?, Event.drained] using ih
  | write _ _ ih => simpa [Event.removed?, Event.drained] using ih
  | remove hframe _ ih =>
      have hfour := (extract?_length hframe).1
      have hpiece := length_take_consumed hframe
      simp only [removed_cons, drained_cons, Event.removed?, Event.drained, Option.toList_some,
        List.singleton_append, List.length_cons, List.length_append, hpiece]
      omega

/-! ## Acknowledgements -/

/-- At every point of a history there are no more acknowledgements than frames have been removed. -/
def Paid (history : List Event) : Prop :=
  ∀ before, before <+: history →
    before.countP Event.isAcknowledgement ≤ (removed before).length

theorem paid_nil : Paid [] := by
  intro before hbefore
  rw [List.prefix_nil.mp hbefore]
  exact Nat.le_refl 0

theorem Paid.cons {event : Event} {later : List Event} (h : Paid later)
    (hevent : event.isAcknowledgement = false) : Paid (event :: later) := by
  intro before hbefore
  rcases List.prefix_cons_iff.mp hbefore with rfl | ⟨rest, rfl, hrest⟩
  · exact Nat.zero_le _
  · have hlater := h rest hrest
    simp only [List.countP_cons, hevent, Bool.false_eq_true, if_false, removed_cons,
      List.length_append]
    omega

theorem Paid.remove {later : List Event} (h : Paid later) (piece : Bytes) (frame : Frame)
    (bytes : Bytes) (outcome : Outcome Fault Unit) :
    Paid (.remove piece frame :: .write bytes outcome :: later) := by
  intro before hbefore
  rcases List.prefix_cons_iff.mp hbefore with rfl | ⟨written, rfl, hwritten⟩
  · exact Nat.zero_le _
  · rcases List.prefix_cons_iff.mp hwritten with rfl | ⟨rest, rfl, hrest⟩
    · simp [Event.isAcknowledgement]
    · have hlater := h rest hrest
      have hremove : (Event.remove piece frame).isAcknowledgement = false := rfl
      have hone : (if (Event.write bytes outcome).isAcknowledgement = true then 1 else 0) ≤ 1 := by
        split <;> omega
      simp only [List.countP_cons, hremove, Bool.false_eq_true, if_false, removed_cons,
        Event.removed?, Option.toList_some, Option.toList_none, List.length_append,
        List.length_singleton, List.length_nil]
      omega

theorem Paid.append {before after : List Event} (hbefore : Paid before) (hafter : Paid after) :
    Paid (before ++ after) := by
  intro part hpart
  rcases List.prefix_or_prefix_of_prefix hpart (List.prefix_append before after) with
    hinside | ⟨rest, rfl⟩
  · exact hbefore part hinside
  · have hrest := hafter rest ((List.prefix_append_right_inj before).mp hpart)
    have hwhole := hbefore before List.prefix_rfl
    simp only [List.countP_append, removed, List.filterMap_append, List.length_append] at hwhole ⊢
    exact Nat.add_le_add hwhole hrest

theorem Receives.paid {link last : Link} {history : List Event} {outcome : Outcome Fault Bytes}
    (h : Receives link history outcome last) : Paid history := by
  induction h with
  | returned => exact paid_nil.remove _ _ _ _
  | rejected _ _ _ _ ih => exact ih.remove _ _ _ _
  | writeFailed => exact paid_nil.remove _ _ _ _
  | writeStalled => exact paid_nil.remove _ _ _ _
  | filled _ _ _ _ ih => exact ih.cons rfl
  | _ => exact paid_nil.cons rfl

theorem paid_historyOf (link : Link) (action : Action) : Paid (link.historyOf action) := by
  cases action with
  | send payload =>
      -- a frame is longer than an acknowledgement
      have hframe : ∀ outcome, (Event.write (encode payload) outcome).isAcknowledgement = false := by
        intro outcome
        cases payload <;> rfl
      exact paid_nil.cons (hframe _)
  | receive => exact (receives_receiveHistory link).paid

theorem paid_histories (link : Link) (actions : List Action) :
    Paid (link.histories actions).flatten := by
  induction actions generalizing link with
  | nil => exact paid_nil
  | cons action later ih => exact (paid_historyOf link action).append (ih _)

/-- At every point of a history whose acknowledgements are paid for, there is at most one for four
bytes that were there at first or have been read. -/
theorem Moves.four_mul_acknowledgements_le {link last : Link} {history before : List Event}
    (h : Moves link history last) (hpaid : Paid history) (hbefore : before <+: history) :
    4 * before.countP Event.isAcknowledgement ≤ link.buffer.length + (delivered before).length := by
  obtain ⟨after, rfl⟩ := hbefore
  obtain ⟨middle, hmoves, -⟩ := h.exists_of_append
  have hcount := hpaid before (List.prefix_append before after)
  have hfour := hmoves.four_mul_length_removed_le
  have hbytes := congrArg List.length hmoves.buffer_append_delivered
  simp only [List.length_append] at hbytes
  omega

/-! ## The bytes that are written -/

/-- The acknowledgements that a step of a run has written. -/
def Step.acknowledgements : Step → Bytes
  | ⟨.send _, _, _⟩ => []
  | ⟨.receive, _, written⟩ => written

/-- No more is written than was attempted. -/
theorem Moves.exists_extends {link last : Link} {history : List Event}
    (h : Moves link history last) :
    ∃ bytes, last.stream.Extends link.stream bytes ∧
      bytes.length ≤ (attempted history).flatten.length := by
  induction h with
  | done => exact ⟨[], ⟨[], rfl, rfl⟩, Nat.le_refl 0⟩
  | read hread _ ih =>
      obtain ⟨bytes, hextends, hlength⟩ := ih
      exact ⟨bytes, hextends.trans (Stream.extends_read hread), hlength⟩
  | @write link last bytes outcome stream later hwrite _ ih =>
      obtain ⟨written, hextends, hlength⟩ := ih
      obtain ⟨part, hpart, hwrites⟩ := Stream.writes_write link.stream bytes
      rw [hwrite] at hwrites
      have hfirst : stream.Extends link.stream part := ⟨[part], hwrites, by simp⟩
      refine ⟨part ++ written, hextends.trans hfirst, ?_⟩
      have hless := hpart.length_le
      simp only [attempted_cons, Event.attempted?, Option.toList_some, List.singleton_append,
        List.flatten_cons, List.length_append]
      omega
  | remove _ _ ih => exact ih

/-- A step writes at most one acknowledgement for four bytes that leave the buffer. -/
theorem four_mul_acknowledgements_perform_le (link : Link) (action : Action) :
    4 * (Step.acknowledgements ⟨action, (link.perform action).1,
        (link.perform action).2.stream.writtenSince link.stream⟩).length +
          (link.perform action).2.buffer.length ≤
      link.buffer.length + (delivered (link.historyOf action)).length := by
  have hmoves := moves_historyOf link action
  have hfour := hmoves.four_mul_length_removed_le
  have hbytes := congrArg List.length hmoves.buffer_append_delivered
  simp only [List.length_append] at hbytes
  cases action with
  | send payload =>
      simp only [Step.acknowledgements, List.length_nil]
      omega
  | receive =>
      obtain ⟨written, hextends, hlength⟩ := hmoves.exists_extends
      have hattempted : attempted (link.historyOf .receive) =
          (removed (link.historyOf .receive)).map fun frame => [frame.acknowledgement] :=
        (receives_receiveHistory link).attempted_eq
      rw [hattempted, ← List.flatMap_def, ← List.map_eq_flatMap, List.length_map] at hlength
      simp only [Step.acknowledgements, hextends.writtenSince_eq]
      omega

theorem four_mul_acknowledgements_run_le (link : Link) (actions : List Action) :
    4 * ((link.run actions).1.flatMap Step.acknowledgements).length +
        (link.run actions).2.buffer.length ≤
      link.buffer.length + (delivered (link.histories actions).flatten).length := by
  induction actions generalizing link with
  | nil => simp [run, histories]
  | cons action later ih =>
      have hstep := four_mul_acknowledgements_perform_le link action
      have hrest := ih (link.perform action).2
      rw [run_cons, histories, List.flatten_cons, List.flatMap_cons]
      simp only [delivered, List.flatMap_append, List.length_append] at hstep hrest ⊢
      omega

/-! ## All receives and all runs -/

/-- The loops of a receive end, and what they take is limited, whatever is in the buffer and
whatever comes from the stream: each frame taken is at least four bytes of what is then in the
buffer, the reads are those that the stream has something for and at most one at its end, and only a
read or a write that is not ready can hold the receive up.  Over a run acknowledgements are written
for at most a quarter of the bytes that have been read, at every point of it. -/
theorem receives_end_within_bounds :
    (∀ (buffer rest : Bytes) (frame : Frame), extract? buffer = some (frame, rest) →
      4 ≤ frame.consumed ∧ frame.consumed ≤ buffer.length ∧ rest = buffer.drop frame.consumed) ∧
    (∀ link : Link,
      Moves link link.receiveHistory link.receive.2 ∧
      (∀ count, link.work < count → link.turns count = .ended link.receive.1 link.receive.2) ∧
      (∀ before piece frame after,
        link.receiveHistory = before ++ .remove piece frame :: after →
          4 ≤ frame.consumed ∧ piece.length = frame.consumed ∧
            ∃ rest, link.buffer ++ delivered before = drained before ++ (piece ++ rest)) ∧
      link.stream.unreadBytes =
        delivered link.receiveHistory ++ link.receive.2.stream.unreadBytes ∧
      link.receiveHistory.countP Event.isRead + link.receive.2.stream.readsLeft ≤
        link.stream.readsLeft + 1 ∧
      (link.stream.Ready → link.receive.1.isAbandoned = false)) ∧
    ∀ (stream : Stream) (actions : List Action),
      let opened := (start stream).2
      let last := (opened.run actions).2
      let history := (opened.histories actions).flatten
      Moves opened history last ∧
        stream.unreadBytes = delivered history ++ last.stream.unreadBytes ∧
        4 * ((opened.run actions).1.flatMap Step.acknowledgements).length + last.buffer.length ≤
          (delivered history).length ∧
        ∀ before, before <+: history →
          4 * before.countP Event.isAcknowledgement ≤ (delivered before).length := by
  refine ⟨?_, ?_, ?_⟩
  · intro buffer rest frame hframe
    obtain ⟨hfour, hlength⟩ := extract?_length hframe
    exact ⟨hfour, by omega, extract?_rest hframe⟩
  · intro link
    have hreceives := receives_receiveHistory link
    have hmoves := hreceives.moves
    refine ⟨hmoves, hreceives.turns_eq, ?_, hmoves.unreadBytes_eq, hreceives.countP_isRead_le, ?_⟩
    · intro before piece frame after hhistory
      rw [hhistory] at hmoves
      exact hmoves.exists_of_remove
    · intro hready
      rw [← hreceives.any_isStall]
      exact (hmoves.ready hready).1
  · intro stream actions opened last history
    have hbuffer : opened.buffer = [] := rfl
    have hwrite : stream.write [accepted] = ((start stream).1, opened.stream) := rfl
    have hopened : opened.stream.unreadBytes = stream.unreadBytes :=
      (Stream.unread_of_write hwrite).1
    have hmoves : Moves opened history last := moves_histories opened actions
    refine ⟨hmoves, ?_, ?_, ?_⟩
    · rw [← hopened]
      exact hmoves.unreadBytes_eq
    · simpa [hbuffer] using four_mul_acknowledgements_run_le opened actions
    · intro before hbefore
      simpa [hbuffer] using
        hmoves.four_mul_acknowledgements_le (paid_histories opened actions) hbefore

/-- The text `+$x#00$OK#9A$` in four pieces: a frame to reject, one to return, and the start of one
more.  The first frame is removed behind three reads. -/
theorem receives_end_on_fragments :
    let link : Link := { stream := fragmented }
    let reads : List Event := (fragments.take 3).map fun piece => .read (.ok piece)
    let first : Frame := ⟨[0x78], false, 6⟩
    let history := ((start fragmented).2.histories [.receive]).flatten
    (extract? fragments.flatten = some (first, fragments.flatten.drop 6) ∧
        6 ≤ fragments.flatten.length) ∧
      (link.work < 8 ∧ link.turns 8 = .ended link.receive.1 link.receive.2) ∧
      (link.receive.1 = .ok [0x4F, 0x4B] ∧ link.receive.2.buffer = [startMark]) ∧
      (∃ rest, link.buffer ++ delivered reads =
        drained reads ++ (fragments.flatten.take 6 ++ rest)) ∧
      (fragmented.Ready ∧ link.receive.1.isAbandoned = false) ∧
      4 * history.countP Event.isAcknowledgement ≤ (delivered history).length := by
  intro link reads first history
  have hframe : extract? fragments.flatten = some (first, fragments.flatten.drop 6) := by
    decide +kernel
  have hwork : link.work < 8 := by decide +kernel
  have hready : fragmented.Ready := ⟨rfl, by decide, by decide⟩
  have hcomputed : link.turns 8 = .ended (.ok [0x4F, 0x4B])
      ⟨{ fragmented with events := [], room := some 62, writes := [[accepted], [rejected]] },
        [startMark]⟩ := by decide +kernel
  have hremoval : link.receiveHistory =
      reads ++ .remove (fragments.flatten.take 6) first :: link.receiveHistory.drop 4 := by
    decide +kernel
  obtain ⟨hextract, hlink, hrun⟩ := receives_end_within_bounds
  obtain ⟨-, hturns, hremovals, -, -, hpending⟩ := hlink link
  have hended := hturns 8 hwork
  obtain ⟨houtcome, hlast⟩ := Turn.ended.inj (hended.symm.trans hcomputed)
  refine ⟨⟨hframe, (hextract _ _ _ hframe).2.1⟩, ⟨hwork, hended⟩, ⟨houtcome, by rw [hlast]⟩,
    (hremovals _ _ _ _ hremoval).2.2, ⟨hready, hpending hready⟩, ?_⟩
  exact (hrun fragmented [.receive]).2.2.2 history List.prefix_rfl

end Link

end RemoteDebugger.Wire
