import RemoteDebugger.Proofs.Number.Denotation
import RemoteDebugger.Proofs.Target.Decoding
import RemoteDebugger.Proofs.Target.Requests
import RemoteDebugger.Target.StopStatus

/-!
# The grammar of stop replies

A stop reply is `S` and the digits of a signal, or `T`, the digits of a signal, two characters of
any kind and the digits of an address; text behind that is ignored.  `StopStatus.Spelled` states
these rules, and the decoder accepts exactly the encodings of texts that begin with such a part.  Of
the other payloads, those that begin with `E` are errors of the target, and the rest is malformed.
-/

namespace RemoteDebugger.Target

open RemoteDebugger.Numeral RemoteDebugger.Text

/-! ## Digits -/

theorem readDigits?_eq_some_iff {digits : List Char} {number : Nat} :
    readDigits? digits = some number ↔ Denotes 16 digits number := by
  induction digits using List.reverseRecOn generalizing number with
  | nil =>
      rw [denotes_nil]
      exact Option.some_inj.trans eq_comm
  | append_singleton front last ih =>
      rw [denotes_concat, readDigits?_append, Option.bind_eq_bind, Option.bind_eq_some_iff]
      simp only [ih, digitValue?_sixteen, List.foldlM_cons, List.foldlM_nil]
      simp only [bind_pure, Option.map_eq_some_iff]
      constructor
      · rintro ⟨value, hvalue, d, hd, rfl⟩
        exact ⟨value, d, hvalue, hd, rfl⟩
      · rintro ⟨value, d, hvalue, hd, rfl⟩
        exact ⟨value, hvalue, d, hd, rfl⟩

/-- Whether characters are all digits of radix sixteen. -/
def AreHexDigits (digits : List Char) : Prop :=
  ∀ c ∈ digits, (Hex.digitValue? c).isSome = true

theorem areHexDigits_iff {digits : List Char} :
    AreHexDigits digits ↔ ∃ number, Denotes 16 digits number := by
  simp only [AreHexDigits, exists_denotes_iff, digitValue?_sixteen]

section Width

variable {c₁ c₂ c₃ c₄ : Char} {number : Nat}

theorem toNat_toUInt8_of_denotes (h : Denotes 16 [c₁, c₂] number) :
    (UInt8.ofNat number).toNat = number := by
  have hfits : number < 256 := by simpa using h.lt (by decide)
  exact UInt8.toNat_ofNat_of_lt' hfits

theorem toNat_toUInt16_of_denotes (h : Denotes 16 [c₁, c₂, c₃, c₄] number) :
    (UInt16.ofNat number).toNat = number := by
  have hfits : number < 65536 := by simpa using h.lt (by decide)
  exact UInt16.toNat_ofNat_of_lt' hfits

theorem areHexDigits_pair_iff :
    AreHexDigits [c₁, c₂] ↔ ∃ byte : UInt8, Denotes 16 [c₁, c₂] byte.toNat := by
  rw [areHexDigits_iff]
  constructor
  · rintro ⟨number, h⟩
    refine ⟨UInt8.ofNat number, ?_⟩
    rwa [toNat_toUInt8_of_denotes h]
  · rintro ⟨byte, h⟩
    exact ⟨byte.toNat, h⟩

theorem areHexDigits_quad_iff :
    AreHexDigits [c₁, c₂, c₃, c₄] ↔
      ∃ word : UInt16, Denotes 16 [c₁, c₂, c₃, c₄] word.toNat := by
  rw [areHexDigits_iff]
  constructor
  · rintro ⟨number, h⟩
    refine ⟨UInt16.ofNat number, ?_⟩
    rwa [toNat_toUInt16_of_denotes h]
  · rintro ⟨word, h⟩
    exact ⟨word.toNat, h⟩

end Width

/-! ## The grammar -/

/-- The part of a text that a stop reply is read from, and the status that it spells. -/
inductive StopStatus.Spelled : List Char → StopStatus → Prop
  | signal {s₁ s₂ : Char} {signal : UInt8} (hsignal : Denotes 16 [s₁, s₂] signal.toNat) :
      Spelled ['S', s₁, s₂] ⟨signal, none⟩
  | trap {s₁ s₂ r₁ r₂ p₁ p₂ p₃ p₄ : Char} {signal : UInt8} {address : UInt16}
      (hsignal : Denotes 16 [s₁, s₂] signal.toNat)
      (haddress : Denotes 16 [p₁, p₂, p₃, p₄] address.toNat) :
      Spelled ['T', s₁, s₂, r₁, r₂, p₁, p₂, p₃, p₄] ⟨signal, some address⟩

theorem StopStatus.ofText?_eq_some_iff {text : List Char} {status : StopStatus} :
    ofText? text = some status ↔ ∃ part rest, text = part ++ rest ∧ Spelled part status := by
  constructor
  · intro h
    unfold ofText? at h
    split at h
    · next s₁ s₂ rest =>
        simp only [Option.bind_eq_bind, Option.bind_eq_some_iff, readDigits?_eq_some_iff] at h
        obtain ⟨signal, hsignal, hstatus⟩ := h
        cases hstatus
        refine ⟨['S', s₁, s₂], rest, rfl, .signal ?_⟩
        rwa [toNat_toUInt8_of_denotes hsignal]
    · next s₁ s₂ r₁ r₂ p₁ p₂ p₃ p₄ rest =>
        simp only [Option.bind_eq_bind, Option.bind_eq_some_iff, readDigits?_eq_some_iff] at h
        obtain ⟨signal, hsignal, address, haddress, hstatus⟩ := h
        cases hstatus
        refine ⟨['T', s₁, s₂, r₁, r₂, p₁, p₂, p₃, p₄], rest, rfl, .trap ?_ ?_⟩
        · rwa [toNat_toUInt8_of_denotes hsignal]
        · rwa [toNat_toUInt16_of_denotes haddress]
    · cases h
  · rintro ⟨part, rest, rfl, hspelled⟩
    cases hspelled with
    | signal hsignal =>
        simp [ofText?, readDigits?_eq_some_iff.mpr hsignal]
    | trap hsignal haddress =>
        simp [ofText?, readDigits?_eq_some_iff.mpr hsignal, readDigits?_eq_some_iff.mpr haddress]

/-- What a stop reply is read from begins with one of two letters. -/
theorem StopStatus.Spelled.head?_eq {part : List Char} {status : StopStatus}
    (h : Spelled part status) (rest : List Char) :
    (part ++ rest).head? = some 'S' ∨ (part ++ rest).head? = some 'T' := by
  cases h with
  | signal => exact Or.inl rfl
  | trap => exact Or.inr rfl

/-- The encoding of a text that begins with what spells a status. -/
def IsStopReply (payload : Bytes) (status : StopStatus) : Prop :=
  ∃ part rest, payload = encodeUtf8 (String.ofList (part ++ rest)) ∧
    StopStatus.Spelled part status

/-! ## The decoder -/

section Decoding

variable {payload : Bytes}

theorem IsStopReply.head?_eq {status : StopStatus} (h : IsStopReply payload status) :
    payload.head? = some 'S'.toUInt8 ∨ payload.head? = some 'T'.toUInt8 := by
  obtain ⟨part, rest, rfl, hspelled⟩ := h
  have hS : 'S'.toNat < 128 := by decide
  have hT : 'T'.toNat < 128 := by decide
  rw [head?_encodeUtf8_ofList hS, head?_encodeUtf8_ofList hT]
  exact hspelled.head?_eq rest

theorem isErrorReply_of_head?_eq
    (h : payload.head? = some 'S'.toUInt8 ∨ payload.head? = some 'T'.toUInt8) :
    isErrorReply payload = false := by
  rw [isErrorReply]
  rcases h with h | h <;> rw [h] <;> decide

theorem decodeStop_of_isErrorReply (h : isErrorReply payload = true) :
    decodeStop payload = .error (remoteError payload) := by
  rw [decodeStop, if_pos h]

/-- Behind one of the two letters, the whole payload has to be text that spells a status. -/
theorem decodeStop_of_head?_eq
    (h : payload.head? = some 'S'.toUInt8 ∨ payload.head? = some 'T'.toUInt8) :
    decodeStop payload =
      match decodeUtf8? payload with
      | none => .error (.protocol (.notText payload))
      | some text =>
        match StopStatus.ofText? text.toList with
        | some status => .ok status
        | none => .error (.protocol (.malformedStop payload)) := by
  have hmark : ¬ isErrorReply payload = true := by simp [isErrorReply_of_head?_eq h]
  rw [decodeStop, if_neg hmark, if_pos h, payloadText]
  cases decodeUtf8? payload <;> rfl

/-- A payload that does not begin with `E` spells a status or is malformed. -/
theorem decodeStop_of_not_isErrorReply (h : ¬ isErrorReply payload = true) :
    (∃ status, decodeStop payload = .ok status ∧ IsStopReply payload status) ∨
      ∃ defect, decodeStop payload = .error (.protocol defect) := by
  by_cases hhead : payload.head? = some 'S'.toUInt8 ∨ payload.head? = some 'T'.toUInt8
  · rw [decodeStop_of_head?_eq hhead]
    cases hdecode : decodeUtf8? payload with
    | none => exact Or.inr ⟨.notText payload, rfl⟩
    | some text =>
        cases hstatus : StopStatus.ofText? text.toList with
        | none => exact Or.inr ⟨.malformedStop payload, by simp only [hstatus]⟩
        | some status =>
            obtain ⟨part, rest, htext, hspelled⟩ := StopStatus.ofText?_eq_some_iff.mp hstatus
            refine Or.inl ⟨status, by simp only [hstatus], part, rest, ?_, hspelled⟩
            rw [← htext, String.ofList_toList]
            exact decodeUtf8?_eq_some_iff.mp hdecode
  · rw [decodeStop, if_neg h, if_neg hhead]
    exact Or.inr ⟨.unexpectedStop payload, rfl⟩

theorem decodeStop_eq_ok_iff {status : StopStatus} :
    decodeStop payload = .ok status ↔ IsStopReply payload status := by
  constructor
  · intro h
    have hmark : ¬ isErrorReply payload = true := by
      intro herror
      rw [decodeStop_of_isErrorReply herror] at h
      cases h
    rcases decodeStop_of_not_isErrorReply hmark with ⟨read, hok, hread⟩ | ⟨defect, hdefect⟩
    · rw [h] at hok
      cases hok
      exact hread
    · rw [h] at hdefect
      cases hdefect
  · intro h
    rw [decodeStop_of_head?_eq h.head?_eq]
    obtain ⟨part, rest, hpayload, hspelled⟩ := h
    have hstatus := StopStatus.ofText?_eq_some_iff.mpr ⟨part, rest, rfl, hspelled⟩
    simp only [decodeUtf8?_eq_some_iff.mpr hpayload, String.toList_ofList, hstatus]

/-- A payload that spells no status is an error of the target or malformed, by its first byte. -/
theorem judges_decodeStop :
    Judges payload (∃ status, IsStopReply payload status) (decodeStop payload) := by
  refine ⟨?_, ?_, ?_⟩
  · rintro ⟨status, hstatus⟩
    exact ⟨status, decodeStop_eq_ok_iff.mpr hstatus⟩
  · intro _ hmark
    exact decodeStop_of_isErrorReply hmark
  · intro hno hmark
    rcases decodeStop_of_not_isErrorReply hmark with ⟨status, -, hstatus⟩ | hdefect
    · exact absurd ⟨status, hstatus⟩ hno
    · exact hdefect

theorem decodeStop_eq_remote_iff {text : String} :
    decodeStop payload = .error (.remote text) ↔
      payload.head? = some 'E'.toUInt8 ∧ text = String.ofList (decodeLossy payload.tail) := by
  rw [judges_decodeStop.eq_remote_iff]
  refine and_iff_right_of_imp ?_
  rintro ⟨hmark, -⟩ ⟨status, hstatus⟩
  have hno := isErrorReply_of_head?_eq hstatus.head?_eq
  rw [← isErrorReply_iff, hno] at hmark
  cases hmark

/-- An error whose text is valid is reported in the words of the target. -/
theorem decodeStop_errorText (text : List Char) :
    decodeStop (encodeUtf8 (String.ofList ('E' :: text))) =
      .error (.remote (String.ofList text)) := by
  have hascii : 'E'.toNat < 128 := by decide
  have hmark := (head?_encodeUtf8_ofList hascii ('E' :: text)).mpr rfl
  rw [decodeStop_of_isErrorReply (isErrorReply_iff.mpr hmark), remoteError_encodeUtf8]

end Decoding

/-! ## The two forms -/

section Forms

variable {payload : Bytes}

theorem exists_decodeStop_signal_iff :
    (∃ signal, decodeStop payload = .ok ⟨signal, none⟩) ↔
      ∃ s₁ s₂ rest, payload = encodeUtf8 (String.ofList ('S' :: s₁ :: s₂ :: rest)) ∧
        AreHexDigits [s₁, s₂] := by
  simp only [decodeStop_eq_ok_iff]
  constructor
  · rintro ⟨signal, part, rest, hpayload, hspelled⟩
    cases hspelled with
    | @signal s₁ s₂ _ hsignal =>
        exact ⟨s₁, s₂, rest, hpayload, areHexDigits_pair_iff.mpr ⟨signal, hsignal⟩⟩
  · rintro ⟨s₁, s₂, rest, hpayload, hdigits⟩
    obtain ⟨signal, hsignal⟩ := areHexDigits_pair_iff.mp hdigits
    exact ⟨signal, ['S', s₁, s₂], rest, hpayload, .signal hsignal⟩

theorem exists_decodeStop_trap_iff :
    (∃ signal address, decodeStop payload = .ok ⟨signal, some address⟩) ↔
      ∃ s₁ s₂ r₁ r₂ p₁ p₂ p₃ p₄ rest,
        payload = encodeUtf8 (String.ofList
          ('T' :: s₁ :: s₂ :: r₁ :: r₂ :: p₁ :: p₂ :: p₃ :: p₄ :: rest)) ∧
        AreHexDigits [s₁, s₂] ∧ AreHexDigits [p₁, p₂, p₃, p₄] := by
  simp only [decodeStop_eq_ok_iff]
  constructor
  · rintro ⟨signal, address, part, rest, hpayload, hspelled⟩
    cases hspelled with
    | @trap s₁ s₂ r₁ r₂ p₁ p₂ p₃ p₄ _ _ hsignal haddress =>
        exact ⟨s₁, s₂, r₁, r₂, p₁, p₂, p₃, p₄, rest, hpayload,
          areHexDigits_pair_iff.mpr ⟨signal, hsignal⟩,
          areHexDigits_quad_iff.mpr ⟨address, haddress⟩⟩
  · rintro ⟨s₁, s₂, r₁, r₂, p₁, p₂, p₃, p₄, rest, hpayload, hdigits, hdigits'⟩
    obtain ⟨signal, hsignal⟩ := areHexDigits_pair_iff.mp hdigits
    obtain ⟨address, haddress⟩ := areHexDigits_quad_iff.mp hdigits'
    exact ⟨signal, address, ['T', s₁, s₂, r₁, r₂, p₁, p₂, p₃, p₄], rest, hpayload,
      .trap hsignal haddress⟩

end Forms

theorem StopStatus.isRunning_iff (status : StopStatus) :
    status.isRunning = true ↔ status.signal = 0 := by
  rw [isRunning, beq_iff_eq]

/-- A stop reply is decoded to the status that its text begins with, whatever follows; one that
begins with `E` is an error of the target, and every other payload is malformed.  The message of an
error of the target is the text that the rest of the payload is read as, which is the text itself
where it is valid. -/
theorem stop_replies_classified :
    (∀ payload status, decodeStop payload = .ok status ↔ IsStopReply payload status) ∧
      (∀ payload, (∃ signal, decodeStop payload = .ok ⟨signal, none⟩) ↔
        ∃ s₁ s₂ rest, payload = encodeUtf8 (String.ofList ('S' :: s₁ :: s₂ :: rest)) ∧
          AreHexDigits [s₁, s₂]) ∧
      (∀ payload, (∃ signal address, decodeStop payload = .ok ⟨signal, some address⟩) ↔
        ∃ s₁ s₂ r₁ r₂ p₁ p₂ p₃ p₄ rest,
          payload = encodeUtf8 (String.ofList
            ('T' :: s₁ :: s₂ :: r₁ :: r₂ :: p₁ :: p₂ :: p₃ :: p₄ :: rest)) ∧
          AreHexDigits [s₁, s₂] ∧ AreHexDigits [p₁, p₂, p₃, p₄]) ∧
      (∀ payload text, decodeStop payload = .error (.remote text) ↔
        payload.head? = some 'E'.toUInt8 ∧
          text = String.ofList (decodeLossy payload.tail)) ∧
      (∀ payload, (∃ defect, decodeStop payload = .error (.protocol defect)) ↔
        payload.head? ≠ some 'E'.toUInt8 ∧ ¬ ∃ status, IsStopReply payload status) ∧
      (∀ part status, StopStatus.Spelled part status → ∀ rest,
        decodeStop (encodeUtf8 (String.ofList (part ++ rest))) = .ok status) ∧
      (∀ status : StopStatus, status.isRunning = true ↔ status.signal = 0) ∧
      (∀ payload text, decodeStop payload = .error (.remote text) →
        ReadsAs payload.tail text.toList) ∧
      ∀ text, decodeStop (encodeUtf8 (String.ofList ('E' :: text))) =
        .error (.remote (String.ofList text)) := by
  refine ⟨fun _ _ => decodeStop_eq_ok_iff, fun _ => exists_decodeStop_signal_iff,
    fun _ => exists_decodeStop_trap_iff, fun _ _ => decodeStop_eq_remote_iff,
    fun _ => judges_decodeStop.exists_protocol_iff.trans and_comm, ?_, StopStatus.isRunning_iff,
    fun _ _ => judges_decodeStop.readsAs_of_remote, decodeStop_errorText⟩
  intro part status hspelled rest
  exact decodeStop_eq_ok_iff.mpr ⟨part, rest, rfl, hspelled⟩

/-- The two characters for the register may take more than a byte each, and text may follow.  In the
report of an error the start of a character that does not go on is replaced. -/
theorem stop_replies_of_wide_register :
    ∃ part : List Char, StopStatus.Spelled part ⟨0x11, some 0x407B⟩ ∧
      decodeStop (encodeUtf8 (String.ofList (part ++ [';', 'x']))) =
        .ok ⟨0x11, some 0x407B⟩ ∧
      decodeStop [0x45, 0x30, 0xE2, 0x82, 0x31] = .error (.remote "0\uFFFD1") ∧
      ReadsAs [0x30, 0xE2, 0x82, 0x31] ['0', '\uFFFD', '1'] := by
  have hsignal : Denotes 16 ['1', '1'] (0x11 : UInt8).toNat := ⟨[1, 1], by decide, by decide⟩
  have haddress : Denotes 16 ['4', '0', '7', 'b'] (0x407B : UInt16).toNat :=
    ⟨[4, 0, 7, 11], by decide, by decide⟩
  have hspelled : StopStatus.Spelled ['T', '1', '1', 'é', '€', '4', '0', '7', 'b']
      ⟨0x11, some 0x407B⟩ := .trap hsignal haddress
  obtain ⟨-, -, -, hremote, -, hread, -, hreads, -⟩ := stop_replies_classified
  have hreport : decodeStop [0x45, 0x30, 0xE2, 0x82, 0x31] = .error (.remote "0\uFFFD1") :=
    (hremote _ _).mpr ⟨rfl, by decide +kernel⟩
  exact ⟨_, hspelled, hread _ _ hspelled [';', 'x'], hreport, hreads _ _ hreport⟩

end RemoteDebugger.Target
