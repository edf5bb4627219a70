import RemoteDebugger.Proofs.Wire.Delivery
import RemoteDebugger.Proofs.Wire.Encoding

/-!
# Resynchronisation

Bytes that end in an unfinished frame can swallow a part of the next one.  That frame may be lost,
but its own end mark and checksum then end the unfinished frame: behind it no frame is open, whatever
came before.  A frame that is sent a second time is therefore always found.
-/

namespace RemoteDebugger.Wire

theorem startMark_not_mem_written {part : Bytes} (h : startMark ∉ part) (sum : UInt8) :
    startMark ∉ part ++ endMark :: checksumDigits sum := by
  have hdigits := (mark_not_mem_checksumDigits sum).1
  have hmark : startMark ≠ endMark := by decide
  simp [h, hmark, hdigits]

/-- An unfinished payload takes the end mark and the checksum that follow for its own. -/
theorem exists_extract?_swallowed {noise opened : Bytes} (hnoise : startMark ∉ noise)
    (hopened : endMark ∉ opened) (sum : UInt8) :
    ∃ frame, extract? (noise ++ startMark :: (opened ++ endMark :: checksumDigits sum)) =
      some (frame, []) := by
  obtain ⟨first, second, hdigits, -⟩ := exists_checksumDigits sum
  rw [hdigits]
  exact ⟨_, extract?_framed hnoise hopened first second []⟩

/-- The end of a frame leaves no frame open, also if its beginning is missing. -/
theorem startMark_not_mem_drain_end {part : Bytes} (h : endMark ∉ part) (sum : UInt8) :
    startMark ∉ (drain (part ++ endMark :: checksumDigits sum)).2 := by
  by_cases hstart : startMark ∈ part
  · -- the payload itself holds a start mark, and opens a frame there
    obtain ⟨noise, opened, rfl, hnoise⟩ := List.eq_append_cons_of_mem hstart
    have hopened : endMark ∉ opened := fun hmem => h (by simp [hmem])
    obtain ⟨frame, hframe⟩ := exists_extract?_swallowed hnoise hopened sum
    rw [List.append_assoc, List.cons_append, drain_of_some hframe, drain_of_none rfl]
    exact List.not_mem_nil
  · have hwhole := startMark_not_mem_written hstart sum
    rw [drain_of_startMark_not_mem hwhole]
    exact hwhole

/-- If the first bytes of a frame are taken for checksum digits, the others leave no frame open. -/
theorem exists_taken_digits {digits payload : Bytes} (hshort : digits.length < 2)
    (hpayload : endMark ∉ payload) :
    ∃ first second rest, digits ++ encode payload = first :: second :: rest ∧
      startMark ∉ (drain rest).2 := by
  match digits, hshort with
  | [digit], _ =>
      refine ⟨digit, startMark, payload ++ endMark :: checksumDigits (checksum payload), rfl, ?_⟩
      exact startMark_not_mem_drain_end hpayload _
  | [], _ =>
      cases payload with
      | nil =>
          have hdigits := (mark_not_mem_checksumDigits (checksum [])).1
          refine ⟨startMark, endMark, checksumDigits (checksum []), rfl, ?_⟩
          rw [drain_of_startMark_not_mem hdigits]
          exact hdigits
      | cons b part =>
          have hpart : endMark ∉ part := fun hmem => hpayload (List.mem_cons_of_mem _ hmem)
          refine ⟨startMark, b, part ++ endMark :: checksumDigits (checksum (b :: part)), rfl, ?_⟩
          exact startMark_not_mem_drain_end hpart _

/-- Behind one whole frame no frame is open, whatever was left unfinished before it. -/
theorem startMark_not_mem_drain_encode {buffer payload : Bytes} (hbuffer : extract? buffer = none)
    (hpayload : endMark ∉ payload) : startMark ∉ (drain (buffer ++ encode payload)).2 := by
  rcases unfinished_of_extract?_eq_none hbuffer with
    hnoise | ⟨noise, opened, hnoise, rfl, hopened | ⟨before, digits, hbefore, rfl, hshort⟩⟩
  · rw [drain_encode hnoise hpayload]
    exact List.not_mem_nil
  · -- the frame is swallowed by the open payload, which ends with it
    have hmark : endMark ≠ startMark := by decide
    have hjoined : endMark ∉ opened ++ startMark :: payload := by
      simp [hopened, hpayload, hmark]
    obtain ⟨frame, hframe⟩ := exists_extract?_swallowed hnoise hjoined (checksum payload)
    have hwhole : noise ++ startMark :: opened ++ encode payload =
        noise ++ startMark :: (opened ++ startMark :: payload ++
          endMark :: checksumDigits (checksum payload)) := by
      simp [encode]
    rw [hwhole, drain_of_some hframe, drain_of_none rfl]
    exact List.not_mem_nil
  · obtain ⟨first, second, rest, htaken, hrest⟩ := exists_taken_digits hshort hpayload
    have hframe := extract?_framed hnoise hbefore first second rest
    have hwhole : noise ++ startMark :: (before ++ endMark :: digits) ++ encode payload =
        noise ++ startMark :: (before ++ endMark :: first :: second :: rest) := by
      simp [← htaken]
    rw [hwhole, drain_of_some hframe]
    exact hrest

theorem exists_drain_encode_encode (garbage : Bytes) {payload : Bytes} (h : endMark ∉ payload) :
    ∃ consumed, drain (garbage ++ encode payload ++ encode payload) =
      ((drain (garbage ++ encode payload)).1 ++ [⟨payload, true, consumed⟩], []) := by
  have hleft : startMark ∉ (drain (garbage ++ encode payload)).2 := by
    rw [drain_append]
    exact startMark_not_mem_drain_encode (extract?_drain garbage) h
  rw [drain_append, drain_encode hleft h]
  exact ⟨_, rfl⟩

/-- If the last frame that a stream delivers is intact, its payload is returned by the receive that
comes after one for each intact frame before it. -/
theorem Link.run_last_intact {stream : Stream} {bytes : Bytes} {frames : List Frame}
    {frame : Frame} (hdelivers : stream.Delivers bytes) (hroom : stream.room = none)
    (hframes : (drain bytes).1 = frames ++ [frame]) (hintact : frame.intact = true) :
    ∃ written,
      ((start stream).2.run (List.replicate ((payloads frames).length + 1) .receive)).1[
        (payloads frames).length]? = some ⟨.receive, .ok frame.payload, written⟩ := by
  have haccepts : ∀ count, stream.Accepts count := by
    intro count room hlimit
    rw [hroom] at hlimit
    cases hlimit
  obtain ⟨-, hawaits, hleft⟩ := awaits_start hdelivers (haccepts _)
  rw [run_expected _ hawaits hleft, hframes]
  have hpayloads : payloads (frames ++ [frame]) = payloads frames ++ [frame.payload] := by
    simp [payloads, hintact]
  refine ⟨expectedWritten (frames ++ [frame]) (payloads frames).length, ?_⟩
  simp [expectedRun, expectedStep, expectedOutcome, hpayloads, List.take_replicate]

/-- The second of two equal frames is found and returned, intact and last, whatever came before
them. -/
theorem second_copy_received (garbage : Bytes) {payload : Bytes} (h : endMark ∉ payload) :
    (∃ consumed, drain (garbage ++ encode payload ++ encode payload) =
      ((drain (garbage ++ encode payload)).1 ++ [⟨payload, true, consumed⟩], [])) ∧
    ∀ stream : Stream, stream.Delivers (garbage ++ encode payload ++ encode payload) →
      stream.room = none →
      let earlier := (payloads (drain (garbage ++ encode payload)).1).length
      ∃ written, ((Link.start stream).2.run (List.replicate (earlier + 1) .receive)).1[earlier]? =
        some ⟨.receive, .ok payload, written⟩ := by
  obtain ⟨consumed, hdrain⟩ := exists_drain_encode_encode garbage h
  refine ⟨⟨consumed, hdrain⟩, ?_⟩
  intro stream hdelivers hroom earlier
  exact Link.run_last_intact hdelivers hroom (congrArg Prod.fst hdrain) rfl

theorem second_copy_behind_unfinished_frame :
    endMark ∉ ([0x24, 0x4F] : Bytes) ∧
      ∃ consumed, drain ([0x24, 0x78, 0x23] ++ encode [0x24, 0x4F] ++ encode [0x24, 0x4F]) =
        ([⟨[0x78], false, 5⟩, ⟨[0x24, 0x4F], true, consumed⟩], []) := by
  have hpayload : endMark ∉ ([0x24, 0x4F] : Bytes) := by decide
  obtain ⟨⟨consumed, hdrain⟩, -⟩ := second_copy_received [0x24, 0x78, 0x23] hpayload
  have hfirst : (drain ([0x24, 0x78, 0x23] ++ encode [0x24, 0x4F])).1 =
      [⟨[0x78], false, 5⟩] := by
    decide +kernel
  rw [hfirst] at hdrain
  exact ⟨hpayload, consumed, hdrain⟩

end RemoteDebugger.Wire
