import RemoteDebugger.Proofs.Wire.Checksum
import RemoteDebugger.Proofs.Wire.Delivery

/-!
# Payloads damaged on their way

One byte of a payload that arrives as another one changes the sum of the payload modulo 256,
whatever the length, so the frame no longer has the checksum that was written behind it.  Unless the
new byte ends the payload early, the frame is still found where it was; a link rejects it and
otherwise does what it would have done without it.
-/

namespace RemoteDebugger.Wire

/-! ## The sum of a damaged payload -/

theorem byteSum_set {payload : Bytes} {index : Nat} (hindex : index < payload.length) (b : UInt8) :
    byteSum (payload.set index b) + payload[index].toNat = byteSum payload + b.toNat := by
  induction payload generalizing index with
  | nil => simp at hindex
  | cons first later ih =>
      have hcons : ∀ (x : UInt8) (xs : Bytes), byteSum (x :: xs) = x.toNat + byteSum xs :=
        fun _ _ => rfl
      cases index with
      | zero =>
          simp only [List.set_cons_zero, List.getElem_cons_zero, hcons]
          omega
      | succ index =>
          have hlater := ih (Nat.lt_of_succ_lt_succ hindex)
          simp only [List.set_cons_succ, List.getElem_cons_succ, hcons]
          omega

theorem checksum_set_ne {payload : Bytes} {index : Nat} {b : UInt8}
    (hindex : index < payload.length) (hb : b ≠ payload[index]) :
    checksum (payload.set index b) ≠ checksum payload := by
  intro hsame
  have hsums : byteSum (payload.set index b) % 256 = byteSum payload % 256 := by
    rw [← toNat_checksum, ← toNat_checksum, hsame]
  have hchange := byteSum_set hindex b
  have hnew : b.toNat < 256 := b.toNat_lt
  have hold : payload[index].toNat < 256 := payload[index].toNat_lt
  -- the sums agree modulo 256 and differ by less than that
  have hequal : b.toNat = payload[index].toNat := by omega
  exact hb (UInt8.toNat_inj.mp hequal)

/-! ## The damaged frame -/

section Damage

variable {payload : Bytes} {index : Nat} {b : UInt8}

/-- The frame around the damaged payload still carries the checksum of the payload that was sent. -/
theorem encode_set (hindex : index < payload.length) (b : UInt8) :
    (encode payload).set (index + 1) b =
      startMark :: (payload.set index b ++ endMark :: checksumDigits (checksum payload)) := by
  rw [encode, List.cons_append, List.set_cons_succ, List.set_append_left _ _ hindex]

theorem extract?_encode_set {noise : Bytes} (hnoise : startMark ∉ noise)
    (hpayload : endMark ∉ payload) (hindex : index < payload.length) (hb : b ≠ payload[index])
    (hmark : b ≠ endMark) (rest : Bytes) :
    extract? (noise ++ (encode payload).set (index + 1) b ++ rest) =
      some (⟨payload.set index b, false, noise.length + payload.length + 4⟩, rest) := by
  have hdamaged : endMark ∉ payload.set index b := by
    intro hmem
    rcases List.mem_or_eq_of_mem_set hmem with hmem | heq
    · exact hpayload hmem
    · exact hmark heq.symm
  obtain ⟨first, second, hdigits, hclaimed⟩ := exists_checksumDigits (checksum payload)
  have hfails : (claimedChecksum? first second ==
      some (checksum (payload.set index b)).toNat) = false := by
    rw [hclaimed, beq_eq_false_iff_ne]
    intro hsame
    exact checksum_set_ne hindex hb (UInt8.toNat_inj.mp (Option.some.inj hsame)).symm
  have hframed := extract?_framed hnoise hdamaged first second rest
  rw [hfails, List.length_set] at hframed
  rw [encode_set hindex, hdigits]
  simpa using hframed

end Damage

/-! ## What a link makes of a frame that is not intact -/

namespace Link

/-- A receive removes a frame unless it leaves none in the buffer. -/
theorem Receives.removed_ne_nil {link last : Link} {history : List Event}
    {outcome : Outcome Fault Bytes} (h : Receives link history outcome last)
    (hlast : extract? last.buffer ≠ none) : removed history ≠ [] := by
  induction h with
  | filled _ _ _ _ ih => simpa [Event.removed?] using ih hlast
  | closed hnone => exact absurd hnone hlast
  | readFailed hnone => exact absurd hnone hlast
  | readStalled hnone => exact absurd hnone hlast
  | _ => simp [Event.removed?]

/-- A receive that finds a frame, in its buffer or in what arrives, removes it before all others. -/
theorem Receives.exists_removed {link last : Link} {history : List Event}
    {outcome : Outcome Fault Bytes} (h : Receives link history outcome last) {frame : Frame}
    {rest : Bytes} (hframe : extract? (link.buffer ++ delivered history) = some (frame, rest)) :
    ∃ later, removed history = frame :: later := by
  have hdrain := h.moves.drain_append []
  rw [List.append_nil, List.append_nil, drain_of_some hframe] at hdrain
  cases hremoved : removed history with
  | cons first later =>
      rw [hremoved, List.cons_append] at hdrain
      exact ⟨later, by rw [(List.cons.inj hdrain).1]⟩
  | nil =>
      rw [hremoved, List.nil_append] at hdrain
      by_cases hlast : extract? last.buffer = none
      · rw [drain_of_none hlast] at hdrain
        cases hdrain
      · exact absurd hremoved (h.removed_ne_nil hlast)

theorem Receives.mem_removed_of_ok {link last : Link} {history : List Event}
    {outcome : Outcome Fault Bytes} (h : Receives link history outcome last) {payload : Bytes}
    (hok : outcome = .ok payload) :
    ∃ frame ∈ removed history, frame.intact = true ∧ frame.payload = payload := by
  have hconfirmed := h.confirmed_eq
  rw [hok, Outcome.toList] at hconfirmed
  have hmem : payload ∈ confirmed history := by rw [hconfirmed]; exact List.mem_singleton_self _
  obtain ⟨⟨frame, answer⟩, hzip, hpayload⟩ := List.mem_filterMap.mp hmem
  simp only [Option.ite_none_right_eq_some] at hpayload
  obtain ⟨⟨hintact, -⟩, hsame⟩ := hpayload
  exact ⟨frame, (List.of_mem_zip hzip).1, hintact, Option.some.inj hsame⟩

/-- Whatever a receive meets, a frame that is not intact and comes first is answered first, by a
rejection, and what is returned is the payload of a later frame. -/
theorem receive_rejects (link : Link) {frame : Frame} {rest : Bytes}
    (hframe : extract? (link.buffer ++ delivered link.receiveHistory) = some (frame, rest))
    (hbad : frame.intact = false) :
    ∃ later, removed link.receiveHistory = frame :: later ∧
      attempted link.receiveHistory =
        [rejected] :: later.map (fun other => [other.acknowledgement]) ∧
      ∀ payload, link.receive.1 = .ok payload →
        ∃ other ∈ later, other.intact = true ∧ other.payload = payload := by
  have hreceives := receives_receiveHistory link
  obtain ⟨later, hremoved⟩ := hreceives.exists_removed hframe
  refine ⟨later, hremoved, ?_, ?_⟩
  · have hanswer : frame.acknowledgement = rejected := by simp [Frame.acknowledgement, hbad]
    rw [hreceives.attempted_eq, hremoved, List.map_cons, hanswer]
  · intro payload hok
    obtain ⟨other, hmem, hintact, hpayload⟩ := hreceives.mem_removed_of_ok hok
    rw [hremoved] at hmem
    rcases List.mem_cons.mp hmem with rfl | hlater
    · rw [hbad] at hintact
      cases hintact
    · exact ⟨other, hlater, hintact, hpayload⟩

/-- The run with one more rejection, which the first receive writes before all else. -/
def rejectFirst : List Step → List Step
  | [] => []
  | ⟨.send payload, outcome, written⟩ :: later =>
      ⟨.send payload, outcome, written⟩ :: rejectFirst later
  | ⟨.receive, outcome, written⟩ :: later => ⟨.receive, outcome, rejected :: written⟩ :: later

theorem expectedRun_cons_rejected {frame : Frame} (hbad : frame.intact = false)
    (frames : List Frame) (actions : List Action) :
    expectedRun (frame :: frames) actions = rejectFirst (expectedRun frames actions) := by
  induction actions with
  | nil => rfl
  | cons action later ih =>
      rw [expectedRun_cons, expectedRun_cons]
      cases action with
      | send payload =>
          rw [leftover, leftover, ih]
          rfl
      | receive =>
          have hanswer : frame.acknowledgement = rejected := by simp [Frame.acknowledgement, hbad]
          have hleft : afterIntact (frame :: frames) = afterIntact frames := by
            simp [afterIntact, hbad]
          obtain ⟨houtcome, hwritten⟩ := expected_cons frame frames
          simp only [hbad, hanswer, Bool.false_eq_true, if_false] at houtcome hwritten
          simp only [expectedStep, leftover, houtcome, hwritten, hleft, rejectFirst]

end Link

/-- A frame in whose payload one byte has been replaced by another one is found, unless the new byte
is an end mark, with the damaged payload and not intact.  A link rejects it and returns the payload
of another frame, if any; where nothing else goes wrong, this rejection is all that the frame
changes. -/
theorem damaged_payload_rejected {payload : Bytes} {index : Nat} {b : UInt8}
    (hpayload : endMark ∉ payload) (hindex : index < payload.length) (hb : b ≠ payload[index])
    (hmark : b ≠ endMark) :
    let damaged := (encode payload).set (index + 1) b
    extract? damaged = some (⟨payload.set index b, false, payload.length + 4⟩, []) ∧
      ∀ noise later : Bytes, startMark ∉ noise →
        (∀ link : Link,
          link.buffer ++ delivered link.receiveHistory = noise ++ damaged ++ later →
          ∃ others, removed link.receiveHistory =
              ⟨payload.set index b, false, noise.length + payload.length + 4⟩ :: others ∧
            attempted link.receiveHistory =
              [rejected] :: others.map (fun other => [other.acknowledgement]) ∧
            ∀ returned, link.receive.1 = .ok returned →
              ∃ other ∈ others, other.intact = true ∧ other.payload = returned) ∧
        ∀ (stream : Stream) (actions : List Link.Action),
          stream.Delivers (noise ++ damaged ++ later) →
          stream.Accepts (1 + ((Link.rejectFirst
            (Link.expectedRun (drain later).1 actions)).flatMap Link.Step.written).length) →
          ((Link.start stream).2.run actions).1 =
            Link.rejectFirst (Link.expectedRun (drain later).1 actions) := by
  intro damaged
  refine ⟨?_, ?_⟩
  · have hnoise : startMark ∉ ([] : Bytes) := List.not_mem_nil
    simpa using extract?_encode_set hnoise hpayload hindex hb hmark []
  · intro noise later hnoise
    have hframe : extract? (noise ++ damaged ++ later) = _ :=
      extract?_encode_set hnoise hpayload hindex hb hmark later
    refine ⟨?_, ?_⟩
    · intro link hbytes
      rw [← hbytes] at hframe
      exact link.receive_rejects hframe rfl
    · intro stream actions hdelivers haccepts
      have hframes := congrArg Prod.fst (drain_of_some hframe)
      have hrun : Link.expectedRun (drain (noise ++ damaged ++ later)).1 actions =
          Link.rejectFirst (Link.expectedRun (drain later).1 actions) := by
        rw [hframes]
        exact Link.expectedRun_cons_rejected rfl _ _
      rw [← hrun] at haccepts ⊢
      exact (Link.run_of_delivers hdelivers haccepts).2.1

/-! ### A damaged reply that is sent again -/

/-- The text `+$S0$#B8$S05#B8` in three pieces. -/
def damagedThenWhole : List Bytes :=
  [[0x2B, 0x24, 0x53], [0x30, 0x24, 0x23, 0x42], [0x38, 0x24, 0x53, 0x30, 0x35, 0x23, 0x42, 0x38]]

theorem damaged_payload_sent_again :
    extract? ((encode [0x53, 0x30, 0x35]).set 3 0x24) =
        some (⟨[0x53, 0x30, 0x24], false, 7⟩, []) ∧
      ((Link.start { events := damagedThenWhole.map .data, room := some 3 }).2.run [.receive]).1 =
        [⟨.receive, .ok [0x53, 0x30, 0x35], [rejected, accepted]⟩] := by
  have hpayload : endMark ∉ ([0x53, 0x30, 0x35] : Bytes) := by decide
  have hindex : 2 < ([0x53, 0x30, 0x35] : Bytes).length := by decide
  have hb : startMark ≠ 0x35 := by decide
  have hmark : startMark ≠ endMark := by decide
  obtain ⟨hfound, hlink⟩ := damaged_payload_rejected hpayload hindex hb hmark
  obtain ⟨-, hrun⟩ := hlink [0x2B] (encode [0x53, 0x30, 0x35]) (by decide)
  have hwhole : drain (encode [0x53, 0x30, 0x35]) = ([⟨[0x53, 0x30, 0x35], true, 7⟩], []) :=
    drain_encode (List.not_mem_nil (a := startMark)) hpayload
  rw [hwhole] at hrun
  refine ⟨hfound, hrun _ [.receive] ?_ ?_⟩
  · refine ⟨rfl, damagedThenWhole, 0, by decide, ?_, rfl⟩
    decide +kernel
  · intro room hroom
    cases hroom
    decide +kernel

end RemoteDebugger.Wire
