import RemoteDebugger.Proofs.Wire.Encoding

/-!
# The language of frames

A buffer holds a frame exactly if it splits into noise, a start mark, a payload, an end mark, two
checksum digits and a rest.  A `Framing` is such a split, and a buffer has one at most.  What is
found in a buffer is therefore settled by the bytes up to the second digit, and a frame that was
written is found as it was written unless its payload holds an end mark, since nothing is escaped.
-/

namespace RemoteDebugger.Wire

/-- A split of a buffer around its first frame. -/
structure Framing (buffer : Bytes) where
  noise : Bytes
  payload : Bytes
  first : UInt8
  second : UInt8
  rest : Bytes
  startMark_not_mem : startMark ∉ noise
  endMark_not_mem : endMark ∉ payload
  buffer_eq : buffer = noise ++ startMark :: (payload ++ endMark :: first :: second :: rest)

namespace Framing

variable {buffer : Bytes}

/-- The frame that a split shows. -/
def frame (framing : Framing buffer) : Frame where
  payload := framing.payload
  intact := claimedChecksum? framing.first framing.second == some (checksum framing.payload).toNat
  consumed := framing.noise.length + framing.payload.length + 4

theorem extract?_eq (framing : Framing buffer) :
    extract? buffer = some (framing.frame, framing.rest) := by
  obtain ⟨noise, payload, first, second, rest, hnoise, hpayload, rfl⟩ := framing
  exact extract?_framed hnoise hpayload first second rest

/-- Both marks are the first of their kind, so there is no choice in a split. -/
theorem eq_of_framing (framing other : Framing buffer) : framing = other := by
  obtain ⟨noise, payload, first, second, rest, hnoise, hpayload, rfl⟩ := framing
  obtain ⟨noise', payload', first', second', rest', hnoise', hpayload', hbuffer⟩ := other
  have hstart := cut?_of_not_mem hnoise (payload ++ endMark :: first :: second :: rest)
  rw [hbuffer, cut?_of_not_mem hnoise', Option.some.injEq, Prod.mk.injEq] at hstart
  obtain ⟨rfl, hopened⟩ := hstart
  have hend := cut?_of_not_mem hpayload (first :: second :: rest)
  rw [← hopened, cut?_of_not_mem hpayload', Option.some.injEq, Prod.mk.injEq] at hend
  obtain ⟨rfl, hdigits⟩ := hend
  simp only [List.cons.injEq] at hdigits
  obtain ⟨rfl, rfl, rfl⟩ := hdigits
  rfl

theorem consumed_bounds (framing : Framing buffer) :
    4 ≤ framing.frame.consumed ∧ framing.frame.consumed ≤ buffer.length := by
  obtain ⟨hleast, hlength⟩ := extract?_length framing.extract?_eq
  exact ⟨hleast, by omega⟩

end Framing

/-! ## Every frame that is found comes from a split -/

theorem exists_framing {buffer rest : Bytes} {frame : Frame}
    (h : extract? buffer = some (frame, rest)) :
    ∃ framing : Framing buffer, framing.frame = frame ∧ framing.rest = rest := by
  unfold extract? at h
  split at h
  · cases h
  · next noise opened hstart =>
      split at h
      · next payload first second _ hend =>
          cases h
          obtain ⟨hnoise, hbuffer⟩ := not_mem_of_cut? hstart
          obtain ⟨hpayload, rfl⟩ := not_mem_of_cut? hend
          exact ⟨⟨noise, payload, first, second, rest, hnoise, hpayload, hbuffer⟩, rfl, rfl⟩
      · cases h

theorem isSome_extract?_iff (buffer : Bytes) :
    (extract? buffer).isSome = true ↔ Nonempty (Framing buffer) := by
  constructor
  · intro h
    obtain ⟨⟨frame, rest⟩, hframe⟩ := Option.isSome_iff_exists.mp h
    obtain ⟨framing, -⟩ := exists_framing hframe
    exact ⟨framing⟩
  · rintro ⟨framing⟩
    rw [framing.extract?_eq]
    rfl

/-! ## Parts of a written frame -/

/-- Without an end mark in its payload a written frame is found only once it is complete. -/
theorem extract?_of_part {payload part : Bytes} (hpayload : endMark ∉ payload)
    (hpart : part <+: encode payload) (hproper : part ≠ encode payload) :
    extract? part = none := by
  obtain ⟨more, hwhole⟩ := hpart
  cases hfound : extract? part with
  | none => rfl
  | some found =>
      obtain ⟨frame, rest⟩ := found
      have hlater := extract?_append hfound more
      have hframe := extract?_encode (List.not_mem_nil (a := startMark)) hpayload []
      rw [List.nil_append, List.append_nil, ← hwhole, hlater] at hframe
      have hrest : rest ++ more = [] := (Prod.mk.inj (Option.some.inj hframe)).2
      obtain rfl : more = [] := (List.append_eq_nil_iff.mp hrest).2
      exact absurd (by simpa using hwhole) hproper

/-- An end mark in the payload is taken for the end of the frame, with the two bytes behind it for
the checksum, before all of the frame is there. -/
theorem exists_part_found {payload : Bytes} (h : endMark ∈ payload) :
    ∃ part, part <+: encode payload ∧ part ≠ encode payload ∧ extract? part ≠ none := by
  obtain ⟨before, after, rfl, hbefore⟩ := List.eq_append_cons_of_mem h
  obtain ⟨high, low, hdigits, -⟩ := exists_checksumDigits (checksum (before ++ endMark :: after))
  obtain ⟨first, second, third, more, hbehind⟩ :
      ∃ first second third more,
        after ++ [endMark, high, low] = first :: second :: third :: more := by
    match after with
    | [] => exact ⟨endMark, high, low, [], rfl⟩
    | [a] => exact ⟨a, endMark, high, [low], rfl⟩
    | [a, b] => exact ⟨a, b, endMark, [high, low], rfl⟩
    | a :: b :: c :: later => exact ⟨a, b, c, later ++ [endMark, high, low], rfl⟩
  have hencode : encode (before ++ endMark :: after) =
      (startMark :: (before ++ [endMark, first, second])) ++ third :: more := by
    have hwhole : encode (before ++ endMark :: after) =
        startMark :: (before ++ endMark :: (after ++ [endMark, high, low])) := by
      simp [encode, hdigits]
    rw [hwhole, hbehind]
    simp
  refine ⟨startMark :: (before ++ [endMark, first, second]), ?_, ?_, ?_⟩
  · rw [hencode]
    exact List.prefix_append _ _
  · rw [hencode]
    intro hsame
    simpa using congrArg List.length hsame
  · have hfound := extract?_framed (List.not_mem_nil (a := startMark)) hbefore first second []
    rw [List.nil_append] at hfound
    rw [hfound]
    exact Option.some_ne_none _

theorem extract?_encode_iff {noise : Bytes} (payload suffix : Bytes) (hnoise : startMark ∉ noise) :
    (extract? (noise ++ encode payload ++ suffix)).map Prod.fst =
        some ⟨payload, true, noise.length + payload.length + 4⟩ ↔
      endMark ∉ payload := by
  constructor
  · intro h
    obtain ⟨⟨frame, rest⟩, hfound, hframe⟩ := Option.map_eq_some_iff.mp h
    obtain ⟨framing, hsame, -⟩ := exists_framing hfound
    have hpayload : framing.payload = payload := congrArg Frame.payload (hsame.trans hframe)
    rw [← hpayload]
    exact framing.endMark_not_mem
  · intro h
    rw [extract?_encode hnoise h]
    rfl

/-- The frames that are found in buffers are those that a split shows, of which there is one at
most; what follows a frame does not change it.  A written frame is found intact, and no part of it
is taken for a frame, exactly if its payload holds no end mark. -/
theorem extract?_finds_framing :
    (∀ buffer : Bytes,
      ((extract? buffer).isSome = true ↔ Nonempty (Framing buffer)) ∧
        ∀ framing : Framing buffer,
          (∀ other : Framing buffer, other = framing) ∧
            extract? buffer = some (framing.frame, framing.rest) ∧
            4 ≤ framing.frame.consumed ∧ framing.frame.consumed ≤ buffer.length ∧
            ∀ more, extract? (buffer ++ more) = some (framing.frame, framing.rest ++ more)) ∧
      (∀ payload : Bytes,
        (∀ part, part <+: encode payload → part ≠ encode payload → extract? part = none) ↔
          endMark ∉ payload) ∧
      ∀ noise payload suffix : Bytes, startMark ∉ noise →
        ((extract? (noise ++ encode payload ++ suffix)).map Prod.fst =
            some ⟨payload, true, noise.length + payload.length + 4⟩ ↔
          endMark ∉ payload) := by
  refine ⟨?_, ?_, ?_⟩
  · intro buffer
    refine ⟨isSome_extract?_iff buffer, ?_⟩
    intro framing
    obtain ⟨hleast, hmost⟩ := framing.consumed_bounds
    exact ⟨fun other => other.eq_of_framing framing, framing.extract?_eq, hleast, hmost,
      extract?_append framing.extract?_eq⟩
  · intro payload
    constructor
    · intro hparts hmem
      obtain ⟨part, hpart, hproper, hfound⟩ := exists_part_found hmem
      exact hfound (hparts part hpart hproper)
    · intro hpayload part
      exact extract?_of_part hpayload
  · intro noise payload suffix hnoise
    exact extract?_encode_iff payload suffix hnoise

theorem framing_behind_acknowledgement :
    startMark ∉ [0x2B] ∧ endMark ∉ [0x24, 0x4F] ∧
      (extract? ([0x2B] ++ encode [0x24, 0x4F] ++ [0x24])).map Prod.fst =
        some ⟨[0x24, 0x4F], true, 7⟩ := by
  have hnoise : startMark ∉ [0x2B] := by decide
  have hpayload : endMark ∉ [0x24, 0x4F] := by decide
  obtain ⟨-, -, hfound⟩ := extract?_finds_framing
  exact ⟨hnoise, hpayload, (hfound [0x2B] [0x24, 0x4F] [0x24] hnoise).mpr hpayload⟩

/-- The frame of the payload `#00` begins with a whole frame of its own. -/
theorem not_extract?_of_proper_part :
    ¬ ∀ payload part : Bytes, part <+: encode payload → part ≠ encode payload →
      extract? part = none := by
  intro h
  have hpart : [0x24, 0x23, 0x30, 0x30] <+: encode [0x23, 0x30, 0x30] := by decide +kernel
  have hproper : [0x24, 0x23, 0x30, 0x30] ≠ encode [0x23, 0x30, 0x30] := by decide +kernel
  have hfound : extract? [0x24, 0x23, 0x30, 0x30] = some (⟨[], true, 4⟩, []) := by decide +kernel
  rw [h _ _ hpart hproper] at hfound
  cases hfound

end RemoteDebugger.Wire
