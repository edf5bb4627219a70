import RemoteDebugger.Text.Utf8

/-!
# Text as bytes

What is encoded is decoded again, and only what was encoded is decoded at all.  An ASCII character
is one byte, and no other character begins with a byte below 128, so the first byte of an encoding
shows whether the text begins with a given ASCII character.
-/

namespace RemoteDebugger.Text

theorem decodeUtf8?_encodeUtf8 (text : String) : decodeUtf8? (encodeUtf8 text) = some text := by
  have hbytes : (encodeUtf8 text).toByteArray = text.toByteArray := by
    apply ByteArray.ext
    simp [encodeUtf8]
  have hvalid : text.toByteArray.IsValidUTF8 := text.isValidUTF8
  rw [decodeUtf8?, hbytes, String.fromUTF8?, dif_pos hvalid]
  rfl

theorem encodeUtf8_of_decodeUtf8? {bytes : Bytes} {text : String}
    (h : decodeUtf8? bytes = some text) : encodeUtf8 text = bytes := by
  rw [decodeUtf8?, String.fromUTF8?] at h
  split at h
  · cases h
    exact congrArg Array.toList List.data_toByteArray
  · cases h

theorem decodeUtf8?_eq_some_iff {bytes : Bytes} {text : String} :
    decodeUtf8? bytes = some text ↔ bytes = encodeUtf8 text := by
  constructor
  · intro h
    exact (encodeUtf8_of_decodeUtf8? h).symm
  · rintro rfl
    exact decodeUtf8?_encodeUtf8 text

theorem encodeUtf8_ofList (text : List Char) :
    encodeUtf8 (String.ofList text) = text.flatMap String.utf8EncodeChar := by
  have hbytes : (String.ofList text).toByteArray =
      (text.flatMap String.utf8EncodeChar).toByteArray := String.toByteArray_ofList
  rw [encodeUtf8, String.toUTF8_eq_toByteArray, hbytes, List.data_toByteArray]

theorem utf8EncodeChar_of_ascii {c : Char} (h : c.toNat < 128) :
    String.utf8EncodeChar c = [c.toUInt8] := by
  have hsize : c.utf8Size = 1 := by
    rw [Char.utf8Size_eq_one_iff, UInt32.le_iff_toNat_le]
    exact Nat.le_of_lt_succ h
  rw [String.utf8EncodeChar_eq_singleton hsize]
  rfl

theorem encodeUtf8_of_ascii {text : List Char} (h : ∀ c ∈ text, c.toNat < 128) :
    encodeUtf8 (String.ofList text) = text.map Char.toUInt8 := by
  rw [encodeUtf8_ofList]
  induction text with
  | nil => rfl
  | cons c later ih =>
      have hfirst : c.toNat < 128 := h c List.mem_cons_self
      have hlater : ∀ d ∈ later, d.toNat < 128 := fun d hd => h d (List.mem_cons_of_mem c hd)
      rw [List.flatMap_cons, utf8EncodeChar_of_ascii hfirst, ih hlater]
      rfl

/-! ## The first byte -/

theorem two_le_utf8Size_of_not_ascii {c : Char} (h : ¬ c.toNat < 128) : 2 ≤ c.utf8Size := by
  have hpos := c.utf8Size_pos
  have hone : c.utf8Size ≠ 1 := by
    rw [ne_eq, Char.utf8Size_eq_one_iff, UInt32.le_iff_toNat_le]
    exact fun hle => h (Nat.lt_succ_of_le hle)
  omega

/-- No byte of a longer encoding is that of an ASCII character. -/
theorem le_of_mem_utf8EncodeChar {c : Char} (h : ¬ c.toNat < 128) :
    ∀ b ∈ String.utf8EncodeChar c, 128 ≤ b.toNat := by
  -- all bytes of a longer encoding have their highest bit set
  have hhigh : ∀ x mark : UInt8, 128 ≤ mark.toNat → 128 ≤ (x ||| mark).toNat := by
    intro x mark hmark
    rw [UInt8.toNat_or]
    exact Nat.le_trans hmark Nat.right_le_or
  have hsize := two_le_utf8Size_of_not_ascii h
  rcases Char.utf8Size_eq c with hone | htwo | hthree | hfour
  · omega
  · rw [String.utf8EncodeChar_eq_cons_cons htwo]
    simp only [List.forall_mem_cons]
    exact ⟨hhigh _ _ (by decide), hhigh _ _ (by decide), by simp⟩
  · rw [String.utf8EncodeChar_eq_cons_cons_cons hthree]
    simp only [List.forall_mem_cons]
    exact ⟨hhigh _ _ (by decide), hhigh _ _ (by decide), hhigh _ _ (by decide), by simp⟩
  · rw [String.utf8EncodeChar_eq_cons_cons_cons_cons hfour]
    simp only [List.forall_mem_cons]
    exact ⟨hhigh _ _ (by decide), hhigh _ _ (by decide), hhigh _ _ (by decide),
      hhigh _ _ (by decide), by simp⟩

theorem exists_utf8EncodeChar_of_not_ascii {c : Char} (h : ¬ c.toNat < 128) :
    ∃ b later, String.utf8EncodeChar c = b :: later ∧ 128 ≤ b.toNat := by
  cases hencode : String.utf8EncodeChar c with
  | nil => exact absurd hencode String.utf8EncodeChar_ne_nil
  | cons b later =>
      refine ⟨b, later, rfl, le_of_mem_utf8EncodeChar h b ?_⟩
      rw [hencode]
      exact List.mem_cons_self

theorem toNat_toUInt8_of_ascii {c : Char} (h : c.toNat < 128) : c.toUInt8.toNat = c.toNat := by
  have hbyte : c.toUInt8.toNat = c.toNat % 2 ^ 8 := UInt32.toNat_toUInt8 c.val
  rw [hbyte]
  omega

/-- An encoding begins with the byte of an ASCII character exactly if the text begins with it. -/
theorem head?_encodeUtf8_ofList {c : Char} (hc : c.toNat < 128) (text : List Char) :
    (encodeUtf8 (String.ofList text)).head? = some c.toUInt8 ↔ text.head? = some c := by
  rw [encodeUtf8_ofList]
  cases text with
  | nil => simp
  | cons d later =>
      rw [List.flatMap_cons, List.head?_cons]
      by_cases hd : d.toNat < 128
      · rw [utf8EncodeChar_of_ascii hd, List.singleton_append, List.head?_cons, Option.some.injEq,
          Option.some.injEq, ← UInt8.toNat_inj, toNat_toUInt8_of_ascii hd,
          toNat_toUInt8_of_ascii hc, Char.toNat_inj]
      · obtain ⟨b, more, hencode, hb⟩ := exists_utf8EncodeChar_of_not_ascii hd
        have hbyte : b ≠ c.toUInt8 := by
          rintro rfl
          rw [toNat_toUInt8_of_ascii hc] at hb
          omega
        have hchar : d ≠ c := by
          rintro rfl
          exact hd hc
        simp [hencode, hbyte, hchar]

/-! ## Bytes that are ASCII -/

theorem encodeUtf8_append (front back : List Char) :
    encodeUtf8 (String.ofList (front ++ back)) =
      encodeUtf8 (String.ofList front) ++ encodeUtf8 (String.ofList back) := by
  rw [encodeUtf8_ofList, encodeUtf8_ofList, encodeUtf8_ofList, List.flatMap_append]

theorem encodeUtf8_cons (c : Char) (later : List Char) :
    encodeUtf8 (String.ofList (c :: later)) =
      String.utf8EncodeChar c ++ encodeUtf8 (String.ofList later) := by
  rw [encodeUtf8_ofList, encodeUtf8_ofList, List.flatMap_cons]

theorem toNat_ofUInt8 (b : UInt8) : (Char.ofUInt8 b).toNat = b.toNat :=
  UInt8.toNat_toUInt32 b

theorem ofUInt8_toUInt8_of_ascii {c : Char} (h : c.toNat < 128) : Char.ofUInt8 c.toUInt8 = c := by
  rw [← Char.toNat_inj, toNat_ofUInt8, toNat_toUInt8_of_ascii h]

/-- Bytes that are ASCII count as one character each. -/
theorem drop_encodeUtf8_of_ascii {text : List Char} {count : Nat}
    (h : ∀ b ∈ (encodeUtf8 (String.ofList text)).take count, b.toNat < 128) :
    (encodeUtf8 (String.ofList text)).drop count =
      encodeUtf8 (String.ofList (text.drop count)) := by
  induction count generalizing text with
  | zero => rfl
  | succ count ih =>
      cases text with
      | nil => rfl
      | cons c later =>
          rw [encodeUtf8_cons] at h ⊢
          by_cases hc : c.toNat < 128
          · rw [utf8EncodeChar_of_ascii hc, List.singleton_append] at h ⊢
            rw [List.take_succ_cons, List.forall_mem_cons] at h
            exact ih h.2
          · obtain ⟨b, more, hencode, hb⟩ := exists_utf8EncodeChar_of_not_ascii hc
            rw [hencode, List.cons_append, List.take_succ_cons, List.forall_mem_cons] at h
            have hbyte := h.1
            omega

/-- An ASCII byte behind the bytes `before` ends the encoding of a longer character no later than
there. -/
theorem length_le_of_utf8EncodeChar_append {c : Char} {rest before after : Bytes} {b : UInt8}
    (h : String.utf8EncodeChar c ++ rest = before ++ b :: after) (hc : ¬ c.toNat < 128)
    (hb : b.toNat < 128) : (String.utf8EncodeChar c).length ≤ before.length := by
  refine Nat.le_of_not_lt fun hlt => ?_
  have hbyte : (String.utf8EncodeChar c)[before.length]? = some b := by
    rw [← List.getElem?_append_left hlt, h]
    simp
  have hhigh := le_of_mem_utf8EncodeChar hc b (List.mem_of_getElem? hbyte)
  omega

/-- ASCII bytes at the front of an encoding are the first characters of the text. -/
theorem exists_of_encodeUtf8_eq_append {text : List Char} {front rest : Bytes}
    (h : encodeUtf8 (String.ofList text) = front ++ rest) (hfront : ∀ b ∈ front, b.toNat < 128) :
    ∃ later, text = front.map Char.ofUInt8 ++ later ∧
      encodeUtf8 (String.ofList later) = rest := by
  induction front generalizing text with
  | nil => exact ⟨text, rfl, h⟩
  | cons b front ih =>
      rw [List.forall_mem_cons] at hfront
      cases text with
      | nil => cases h
      | cons c later =>
          rw [encodeUtf8_cons] at h
          by_cases hc : c.toNat < 128
          · rw [utf8EncodeChar_of_ascii hc] at h
            obtain ⟨rfl, hlater⟩ := List.cons.inj h
            obtain ⟨last, rfl, hlast⟩ := ih hlater hfront.2
            refine ⟨last, ?_, hlast⟩
            rw [List.map_cons, ofUInt8_toUInt8_of_ascii hc, List.cons_append]
          · have hlength : (String.utf8EncodeChar c).length ≤ ([] : Bytes).length :=
              length_le_of_utf8EncodeChar_append h hc hfront.1
            have hpos := c.utf8Size_pos
            rw [String.length_utf8EncodeChar, List.length_nil] at hlength
            omega

end RemoteDebugger.Text
