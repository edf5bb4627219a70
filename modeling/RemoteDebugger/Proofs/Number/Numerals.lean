import RemoteDebugger.Proofs.Number.Denotation
import RemoteDebugger.Proofs.Results

/-!
# Numerals

A numeral is an optional plus sign and one or more digits.  The reader keeps its value below the
limit after each digit; as digits behind others never make a number smaller, it reads exactly the
numerals of numbers below the limit, however many digits they have.
-/

namespace RemoteDebugger.Numeral

variable {radix limit number : Nat} {text : List Char}

/-- A text is a numeral of a number: one or more digits that denote it, and perhaps a plus sign
before them. -/
def IsNumeral (radix : Nat) (text : List Char) (number : Nat) : Prop :=
  ∃ digits, digits ≠ [] ∧ (text = digits ∨ text = '+' :: digits) ∧ Denotes radix digits number

/-! ## Digits -/

theorem not_denotes_plus (rest : List Char) (number : Nat) :
    ¬ Denotes radix ('+' :: rest) number := by
  intro h
  have hplus := exists_denotes_iff.mp ⟨number, h⟩ '+' List.mem_cons_self
  have hnone : digitValue? radix '+' = none := rfl
  rw [hnone] at hplus
  cases hplus

theorem readDigits_append (value : Nat) (front rest : List Char) :
    readDigits radix limit value (front ++ rest) =
      readDigits radix limit value front >>= fun read => readDigits radix limit read rest := by
  induction front generalizing value with
  | nil => rfl
  | cons c front ih =>
      rw [List.cons_append, readDigits, readDigits]
      cases digitValue? radix c with
      | none => rfl
      | some d =>
          by_cases hfits : value * radix + d < limit
          · simp only [hfits, if_true]
            exact ih _
          · simp only [hfits, if_false]
            rfl

theorem readDigits_singleton_eq_ok_iff {value : Nat} {c : Char} :
    readDigits radix limit value [c] = .ok number ↔
      ∃ d, digitValue? radix c = some d ∧ number = value * radix + d ∧ number < limit := by
  rw [readDigits]
  cases digitValue? radix c with
  | none => simp
  | some d =>
      by_cases hfits : value * radix + d < limit
      · simp only [hfits, if_true, readDigits, Except.ok.injEq, Option.some.injEq]
        constructor
        · rintro rfl
          exact ⟨d, rfl, rfl, hfits⟩
        · rintro ⟨_, rfl, rfl, -⟩
          rfl
      · simp only [hfits, if_false, reduceCtorEq, Option.some.injEq, false_iff]
        rintro ⟨_, rfl, rfl, hlt⟩
        exact hfits hlt

/-- Digits are read exactly if they denote a number below the limit. -/
theorem readDigits_eq_ok_iff (hlimit : 0 < limit) :
    readDigits radix limit 0 text = .ok number ↔ Denotes radix text number ∧ number < limit := by
  induction text using List.reverseRecOn generalizing number with
  | nil =>
      rw [denotes_nil, readDigits, Except.ok.injEq]
      constructor
      · rintro rfl
        exact ⟨rfl, hlimit⟩
      · rintro ⟨rfl, -⟩
        rfl
  | append_singleton front c ih =>
      simp only [readDigits_append, bind_eq_ok_iff, ih, readDigits_singleton_eq_ok_iff,
        denotes_concat]
      constructor
      · rintro ⟨value, ⟨hvalue, -⟩, d, hd, rfl, hfits⟩
        exact ⟨⟨value, d, hvalue, hd, rfl⟩, hfits⟩
      · rintro ⟨⟨value, d, hvalue, hd, rfl⟩, hfits⟩
        -- the digits in front denote no more than all of them
        have hradix : 0 < radix := Nat.zero_lt_of_lt (digitValue?_lt hd)
        have hle : value ≤ value * radix := Nat.le_mul_of_pos_right value hradix
        have hvaluefits : value < limit := by omega
        exact ⟨value, ⟨hvalue, hvaluefits⟩, d, hd, rfl, hfits⟩

/-! ## Numerals -/

theorem isNumeral_plus_iff {digits : List Char} :
    IsNumeral radix ('+' :: digits) number ↔ digits ≠ [] ∧ Denotes radix digits number := by
  constructor
  · rintro ⟨spelled, hne, rfl | hplus, hdenotes⟩
    · exact (not_denotes_plus digits number hdenotes).elim
    · obtain rfl := (List.cons.inj hplus).2
      exact ⟨hne, hdenotes⟩
  · rintro ⟨hne, hdenotes⟩
    exact ⟨digits, hne, .inr rfl, hdenotes⟩

theorem isNumeral_iff_of_not_plus (h : ∀ rest, text ≠ '+' :: rest) :
    IsNumeral radix text number ↔ text ≠ [] ∧ Denotes radix text number := by
  constructor
  · rintro ⟨digits, hne, rfl | hplus, hdenotes⟩
    · exact ⟨hne, hdenotes⟩
    · exact (h digits hplus).elim
  · rintro ⟨hne, hdenotes⟩
    exact ⟨text, hne, .inl rfl, hdenotes⟩

theorem IsNumeral.unique {other : Nat} (h : IsNumeral radix text number)
    (hother : IsNumeral radix text other) : number = other := by
  by_cases hplus : ∃ digits, text = '+' :: digits
  · obtain ⟨digits, rfl⟩ := hplus
    exact (isNumeral_plus_iff.mp h).2.unique (isNumeral_plus_iff.mp hother).2
  · rw [isNumeral_iff_of_not_plus fun rest hrest => hplus ⟨rest, hrest⟩] at h hother
    exact h.2.unique hother.2

/-- A numeral holds no character that is neither a digit nor a plus sign. -/
theorem IsNumeral.not_mem (h : IsNumeral radix text number) (mark : Char)
    (hdigit : digitValue? radix mark = none) (hplus : mark ≠ '+') : mark ∉ text := by
  obtain ⟨digits, -, htext, hdenotes⟩ := h
  have hdigits : mark ∉ digits := by
    intro hmem
    have hsome := exists_denotes_iff.mp ⟨number, hdenotes⟩ mark hmem
    rw [hdigit] at hsome
    cases hsome
  rcases htext with rfl | rfl
  · exact hdigits
  · rw [List.mem_cons, not_or]
    exact ⟨hplus, hdigits⟩

/-- Exactly the numerals of numbers below the limit are read. -/
theorem read_eq_ok_iff (hlimit : 0 < limit) :
    read radix limit text = .ok number ↔ IsNumeral radix text number ∧ number < limit := by
  unfold read
  split
  · simp [isNumeral_iff_of_not_plus]
  · rw [readDigits_eq_ok_iff hlimit, isNumeral_plus_iff]
    simp
  · next hempty hsigned =>
      rw [readDigits_eq_ok_iff hlimit]
      by_cases hplus : text = ['+']
      · -- a plus sign with nothing behind it is neither a numeral nor a digit
        subst hplus
        simp [isNumeral_plus_iff, not_denotes_plus]
      · have hunsigned : ∀ rest, text ≠ '+' :: rest := by
          rintro (_ | ⟨c, rest⟩) rfl
          · exact hplus rfl
          · exact hsigned c rest rfl
        have hne : text ≠ [] := hempty
        rw [isNumeral_iff_of_not_plus hunsigned, and_iff_right hne]

theorem readWord_eq_ok_iff {word : UInt16} :
    readWord radix text = .ok word ↔ IsNumeral radix text word.toNat := by
  have hword : word.toNat < 65536 := word.toNat_lt
  constructor
  · intro h
    obtain ⟨number, hread, rfl⟩ := map_eq_ok_iff.mp h
    obtain ⟨hnumeral, hfits⟩ := (read_eq_ok_iff (by decide)).mp hread
    rwa [UInt16.toNat_ofNat_of_lt' hfits]
  · intro h
    have hread : read radix 65536 text = .ok word.toNat :=
      (read_eq_ok_iff (by decide)).mpr ⟨h, hword⟩
    exact map_eq_ok_iff.mpr ⟨word.toNat, hread, UInt16.ofNat_toNat⟩

theorem toOption_readWord_eq_some_iff {word : UInt16} :
    (readWord radix text).toOption = some word ↔ IsNumeral radix text word.toNat := by
  rw [← readWord_eq_ok_iff]
  cases readWord radix text with
  | error fault => simp [Except.toOption]
  | ok read => simp [Except.toOption]

end RemoteDebugger.Numeral
