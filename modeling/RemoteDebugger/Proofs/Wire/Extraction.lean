import RemoteDebugger.Wire.Frame

/-!
# Extraction from a growing buffer

A frame that has been found is not changed by bytes that arrive behind it.  Taking frames while the
bytes come in therefore finds the frames that `drain` finds in all of them at once.  Where no frame
is found, `unfinished_of_extract?_eq_none` says what is still missing.
-/

namespace RemoteDebugger

theorem cut?_append {α : Type} {p : α → Bool} {xs before after : List α}
    (h : cut? p xs = some (before, after)) (ys : List α) :
    cut? p (xs ++ ys) = some (before, after ++ ys) := by
  obtain ⟨x, hx, hbefore, rfl⟩ := cut?_eq_some_iff.mp h
  refine cut?_eq_some_iff.mpr ⟨x, hx, hbefore, ?_⟩
  rw [List.append_assoc, List.cons_append]

namespace Wire

/-! ## The first frame -/

/-- A frame is found behind bytes that open none, whatever follows it. -/
theorem extract?_framed {noise payload : Bytes} (hnoise : startMark ∉ noise)
    (hpayload : endMark ∉ payload) (first second : UInt8) (rest : Bytes) :
    extract? (noise ++ startMark :: (payload ++ endMark :: first :: second :: rest)) =
      some (⟨payload, claimedChecksum? first second == some (checksum payload).toNat,
        noise.length + payload.length + 4⟩, rest) := by
  simp only [extract?, cut?_of_not_mem hnoise, cut?_of_not_mem hpayload]

/-- A buffer without a complete frame opens none, or lacks the end of its payload or a digit of the
checksum behind it. -/
theorem unfinished_of_extract?_eq_none {buffer : Bytes} (h : extract? buffer = none) :
    startMark ∉ buffer ∨
      ∃ noise opened, startMark ∉ noise ∧ buffer = noise ++ startMark :: opened ∧
        (endMark ∉ opened ∨
          ∃ payload digits, endMark ∉ payload ∧ opened = payload ++ endMark :: digits ∧
            digits.length < 2) := by
  unfold extract? at h
  split at h
  · next hstart => exact Or.inl (cut?_eq_none_iff_not_mem.mp hstart)
  · next noise opened hstart =>
      obtain ⟨hnoise, rfl⟩ := not_mem_of_cut? hstart
      refine Or.inr ⟨noise, opened, hnoise, rfl, ?_⟩
      cases hend : cut? (· == endMark) opened with
      | none => exact Or.inl (cut?_eq_none_iff_not_mem.mp hend)
      | some parts =>
          obtain ⟨payload, digits⟩ := parts
          obtain ⟨hpayload, rfl⟩ := not_mem_of_cut? hend
          refine Or.inr ⟨payload, digits, hpayload, rfl, ?_⟩
          match digits, hend with
          | [], _ => decide
          | [_], _ => simp
          | first :: second :: rest, hend => simp [hend] at h

/-- Bytes behind the first frame never change it. -/
theorem extract?_append {buffer rest : Bytes} {frame : Frame}
    (h : extract? buffer = some (frame, rest)) (more : Bytes) :
    extract? (buffer ++ more) = some (frame, rest ++ more) := by
  unfold extract? at h
  split at h
  · cases h
  · next noise opened hstart =>
    split at h
    · next payload first second tail hend =>
      cases h
      have hstart' := cut?_append hstart more
      have hend' := cut?_append hend more
      simp [extract?, hstart', hend']
    · cases h

/-- A buffer is the bytes that its first frame consumes, followed by the rest. -/
theorem take_consumed_append {buffer rest : Bytes} {frame : Frame}
    (h : extract? buffer = some (frame, rest)) :
    buffer.take frame.consumed ++ rest = buffer := by
  rw [extract?_rest h]
  exact List.take_append_drop _ _

/-! ## All frames -/

theorem drain_of_none {buffer : Bytes} (h : extract? buffer = none) :
    drain buffer = ([], buffer) := by
  rw [drain]
  split
  · rfl
  · next hsome =>
    rw [h] at hsome
    cases hsome

/-- Bytes that open no frame are left as they are. -/
theorem drain_of_startMark_not_mem {buffer : Bytes} (h : startMark ∉ buffer) :
    drain buffer = ([], buffer) := by
  apply drain_of_none
  rw [extract?, cut?_eq_none_iff_not_mem.mpr h]

theorem drain_of_some {buffer rest : Bytes} {frame : Frame}
    (h : extract? buffer = some (frame, rest)) :
    drain buffer = (frame :: (drain rest).1, (drain rest).2) := by
  rw [drain]
  split
  · next hnone =>
    rw [h] at hnone
    cases hnone
  · next hsome =>
    rw [h] at hsome
    cases hsome
    rfl

/-- However many bytes follow, the frames found first are those that were there first. -/
theorem drain_append_of_some {buffer rest : Bytes} {frame : Frame}
    (h : extract? buffer = some (frame, rest)) (more : Bytes) :
    (drain (buffer ++ more)).1 = frame :: (drain (rest ++ more)).1 := by
  rw [drain_of_some (extract?_append h more)]

theorem extract?_drain (buffer : Bytes) : extract? (drain buffer).2 = none := by
  fun_induction drain buffer with
  | case1 buffer hnone => exact hnone
  | case2 buffer frame rest _ later ih => exact ih

/-- Of the bytes before, only those that are left over matter for the frames that follow. -/
theorem drain_append (buffer more : Bytes) :
    drain (buffer ++ more) =
      ((drain buffer).1 ++ (drain ((drain buffer).2 ++ more)).1,
        (drain ((drain buffer).2 ++ more)).2) := by
  fun_induction drain buffer with
  | case1 buffer hnone => simp
  | case2 buffer frame rest hsome later ih =>
      rw [drain_of_some (extract?_append hsome more), ih]
      rfl

end Wire

end RemoteDebugger
