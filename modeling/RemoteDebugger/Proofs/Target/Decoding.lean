import RemoteDebugger.Proofs.Results
import RemoteDebugger.Proofs.Text.Lossy
import RemoteDebugger.Target.Request

/-!
# Errors of decoders

A decoder only judges the payload that it is given.  Its errors say that the payload is no answer to
the request, or that it reports an error of the target; none of them concerns the connection or the
session.  Two decoders let the first byte decide which of the two it is when they do not accept a
payload (`Judges`): what they accept then settles each of their three outcomes.
-/

namespace RemoteDebugger

open RemoteDebugger.Text

/-- Whether an error tells of the content of a reply. -/
def Error.isReply : Error → Bool
  | .protocol _ | .remote _ => true
  | _ => false

theorem Error.isFatal_of_isReply {error : Error} (h : error.isReply = true) :
    error.isFatal = false := by
  cases error with
  | protocol defect => rfl
  | remote text => rfl
  | _ => cases h

namespace Target

theorem isErrorReply_iff {payload : Bytes} :
    isErrorReply payload = true ↔ payload.head? = some 'E'.toUInt8 := by
  rw [isErrorReply, beq_iff_eq]

/-- A report in UTF-8 is quoted as it stands. -/
theorem remoteError_encodeUtf8 (text : List Char) :
    remoteError (encodeUtf8 (String.ofList ('E' :: text))) = .remote (String.ofList text) := by
  have hnil : decodeLossy [] = [] := rfl
  have htext := decodeLossy_encodeUtf8_append text []
  rw [List.append_nil, hnil, List.append_nil] at htext
  rw [remoteError, encodeUtf8_cons, utf8EncodeChar_of_ascii (by decide), List.singleton_append,
    List.tail_cons, htext]

/-- A result for a payload that is accepted or, by its first byte, an error of the target or
malformed. -/
structure Judges {α : Type} (payload : Bytes) (accepted : Prop) (result : Except Error α) :
    Prop where
  ok : accepted → ∃ value, result = .ok value
  remote : ¬ accepted → isErrorReply payload = true → result = .error (remoteError payload)
  protocol : ¬ accepted → ¬ isErrorReply payload = true →
    ∃ defect, result = .error (.protocol defect)

namespace Judges

variable {α β : Type} {payload : Bytes} {accepted : Prop} {result : Except Error α}

theorem exists_ok_iff (h : Judges payload accepted result) :
    (∃ value, result = .ok value) ↔ accepted := by
  refine ⟨?_, h.ok⟩
  rintro ⟨value, hok⟩
  refine Classical.byContradiction fun hno => ?_
  by_cases hmark : isErrorReply payload = true
  · have herror := h.remote hno hmark
    rw [hok] at herror
    cases herror
  · obtain ⟨defect, hdefect⟩ := h.protocol hno hmark
    rw [hok] at hdefect
    cases hdefect

theorem not_accepted_of_error (h : Judges payload accepted result) {error : Error}
    (herror : result = .error error) : ¬ accepted := by
  intro haccepted
  obtain ⟨value, hok⟩ := h.ok haccepted
  rw [herror] at hok
  cases hok

theorem eq_remote_iff (h : Judges payload accepted result) {text : String} :
    result = .error (.remote text) ↔
      ¬ accepted ∧ payload.head? = some 'E'.toUInt8 ∧
        text = String.ofList (decodeLossy payload.tail) := by
  rw [← isErrorReply_iff]
  constructor
  · intro herror
    have hno := h.not_accepted_of_error herror
    by_cases hmark : isErrorReply payload = true
    · have hremote := h.remote hno hmark
      rw [herror] at hremote
      cases hremote
      exact ⟨hno, hmark, rfl⟩
    · obtain ⟨defect, hdefect⟩ := h.protocol hno hmark
      rw [herror] at hdefect
      cases hdefect
  · rintro ⟨hno, hmark, rfl⟩
    exact h.remote hno hmark

/-- What a target reports is the text that the bytes behind the first one are read as. -/
theorem readsAs_of_remote (h : Judges payload accepted result) {text : String}
    (hremote : result = .error (.remote text)) : ReadsAs payload.tail text.toList := by
  obtain ⟨-, -, rfl⟩ := h.eq_remote_iff.mp hremote
  rw [String.toList_ofList, readsAs_iff]

theorem exists_protocol_iff (h : Judges payload accepted result) :
    (∃ defect, result = .error (.protocol defect)) ↔
      ¬ accepted ∧ payload.head? ≠ some 'E'.toUInt8 := by
  rw [ne_eq, ← isErrorReply_iff]
  constructor
  · rintro ⟨defect, herror⟩
    have hno := h.not_accepted_of_error herror
    refine ⟨hno, fun hmark => ?_⟩
    have hremote := h.remote hno hmark
    rw [herror] at hremote
    cases hremote
  · rintro ⟨hno, hmark⟩
    exact h.protocol hno hmark

theorem map (h : Judges payload accepted result) (f : α → β) :
    Judges payload accepted (f <$> result) := by
  refine ⟨?_, ?_, ?_⟩
  · intro haccepted
    obtain ⟨value, hok⟩ := h.ok haccepted
    exact ⟨f value, map_eq_ok_iff.mpr ⟨value, hok, rfl⟩⟩
  · intro hno hmark
    exact map_eq_error_iff.mpr (h.remote hno hmark)
  · intro hno hmark
    obtain ⟨defect, hdefect⟩ := h.protocol hno hmark
    exact ⟨defect, map_eq_error_iff.mpr hdefect⟩

end Judges

theorem isReply_of_payloadText {payload : Bytes} {error : Error}
    (h : payloadText payload = .error error) : error.isReply = true := by
  unfold payloadText at h
  split at h
  · cases h
  · cases h
    rfl

theorem isReply_of_decodeStop {payload : Bytes} {error : Error}
    (h : decodeStop payload = .error error) : error.isReply = true := by
  unfold decodeStop at h
  split at h
  · cases h
    rfl
  · split at h
    · cases htext : payloadText payload with
      | error reason =>
          rw [htext] at h
          cases h
          exact isReply_of_payloadText htext
      | ok text =>
          simp only [htext, bind, Except.bind] at h
          split at h
          · cases h
          · cases h
            rfl
    · cases h
      rfl

theorem isReply_of_decodeBytes {payload : Bytes} {length : Nat} {error : Error}
    (h : decodeBytes payload length = .error error) : error.isReply = true := by
  unfold decodeBytes at h
  split at h
  · split at h
    · cases h
    · split at h <;> cases h <;> rfl
  · split at h <;> cases h <;> rfl

theorem isReply_of_decodePeripherals {payload : Bytes} {error : Error}
    (h : decodePeripherals payload = .error error) : error.isReply = true := by
  unfold decodePeripherals at h
  cases htext : payloadText payload with
  | error reason =>
      rw [htext] at h
      cases h
      exact isReply_of_payloadText htext
  | ok text =>
      simp only [htext, bind, Except.bind] at h
      -- the error is that of the first malformed record
      obtain ⟨-, record, -, -, -, hrecord⟩ := mapM_eq_error_iff.mp h
      split at hrecord
      · cases hrecord
      · cases hrecord
        rfl

/-- The error of a decoder tells of the payload that it was given. -/
theorem Request.isReply_of_decode {request : Request} {payload : Bytes} {error : Error}
    (h : request.decode payload = .error error) : error.isReply = true := by
  cases request with
  | control action => exact isReply_of_decodeStop h
  | registers => exact isReply_of_decodeBytes (map_eq_error_iff.mp h)
  | readMemory address length => exact isReply_of_decodeBytes (map_eq_error_iff.mp h)
  | writeMemory address data => cases h
  | reset => cases h
  | peripherals => exact isReply_of_decodePeripherals h

end Target

end RemoteDebugger
