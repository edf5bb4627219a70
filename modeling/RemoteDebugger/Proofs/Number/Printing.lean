import RemoteDebugger.Proofs.Number.Numerals

/-!
# Printed numbers

A number is printed as its digits in a radix up to sixteen, with letters of either case.  The digits
denote the number, so that a printed number is a numeral.  No digit is a blank.
-/

namespace RemoteDebugger

namespace Hex

open RemoteDebugger.Text

/-- A letter in lower case, written in the given case. -/
def LetterCase.write (letters : LetterCase) (c : Char) : Char :=
  match letters with
  | .lower => c
  | .upper => c.toUpper

theorem digitValue?_write {value : Nat} (letters : LetterCase) (h : value < 16) :
    digitValue? (letters.write value.digitChar) = some value := by
  have all : ∀ v : Fin 16, ∀ l ∈ [LetterCase.lower, .upper],
      digitValue? (l.write v.val.digitChar) = some v.val := by
    decide
  apply all ⟨value, h⟩ letters
  cases letters <;> simp

theorem not_blank_of_digitValue? {c : Char} (h : (digitValue? c).isSome = true) :
    isBlank c = false := by
  have all : ∀ code : Fin 128, (digitValue? (Char.ofNat code)).isSome = true →
      isBlank (Char.ofNat code) = false := by
    decide
  have hcode := all ⟨c.toNat, toNat_lt_of_digitValue? h⟩
  rw [Char.ofNat_toNat] at hcode
  exact hcode h

end Hex

namespace Numeral

open RemoteDebugger.Text

variable {radix : Nat}

/-- The digits of a number, the most significant first. -/
def print (letters : Hex.LetterCase) (radix number : Nat) : List Char :=
  (Nat.toDigits radix number).map letters.write

theorem print_of_lt {number : Nat} (letters : Hex.LetterCase) (h : number < radix) :
    print letters radix number = [letters.write number.digitChar] := by
  rw [print, Nat.toDigits_of_lt_base h, List.map_singleton]

theorem print_of_le {number : Nat} (letters : Hex.LetterCase) (hradix : 1 < radix)
    (h : radix ≤ number) :
    print letters radix number =
      print letters radix (number / radix) ++ [letters.write (number % radix).digitChar] := by
  rw [print, Nat.toDigits_of_base_le hradix h, List.map_append, List.map_singleton, print]

theorem digitValue?_write {value : Nat} (letters : Hex.LetterCase) (hradix : radix ≤ 16)
    (h : value < radix) : digitValue? radix (letters.write value.digitChar) = some value := by
  have hdigit := Hex.digitValue?_write letters (Nat.lt_of_lt_of_le h hradix)
  simp [digitValue?, hdigit, h]

/-- The digits of a number denote it. -/
theorem denotes_print (letters : Hex.LetterCase) (hradix : 1 < radix) (hsixteen : radix ≤ 16)
    (number : Nat) : Denotes radix (print letters radix number) number := by
  induction number using Nat.strong_induction_on with
  | _ number ih =>
      by_cases hsmall : number < radix
      · have hlast := digitValue?_write letters hsixteen hsmall
        have hone : Denotes radix ([] ++ [letters.write number.digitChar]) number := by
          apply denotes_concat.mpr
          exact ⟨0, number, denotes_nil.mpr rfl, hlast, by simp⟩
        rw [print_of_lt letters hsmall]
        exact hone
      · have hlarge : radix ≤ number := Nat.le_of_not_lt hsmall
        have hless : number / radix < number := Nat.div_lt_self (by omega) hradix
        have hlast := digitValue?_write letters hsixteen (Nat.mod_lt number (by omega))
        rw [print_of_le letters hradix hlarge]
        apply denotes_concat.mpr
        exact ⟨number / radix, number % radix, ih _ hless, hlast,
          (Nat.div_add_mod' number radix).symm⟩

theorem print_ne_nil (letters : Hex.LetterCase) (number : Nat) :
    print letters radix number ≠ [] := by
  rw [print, ne_eq, List.map_eq_nil_iff]
  exact Nat.toDigits_ne_nil

theorem isNumeral_print (letters : Hex.LetterCase) (hradix : 1 < radix) (hsixteen : radix ≤ 16)
    (number : Nat) : IsNumeral radix (print letters radix number) number :=
  ⟨_, print_ne_nil letters number, .inl rfl, denotes_print letters hradix hsixteen number⟩

/-- The decimal digits that stand for a number in a text. -/
theorem toList_toString (number : Nat) : (toString number).toList = print .lower 10 number := by
  have hletters : Hex.LetterCase.lower.write = id := rfl
  rw [Nat.toString_eq_ofList_toDigits, String.toList_ofList, print, hletters, List.map_id]

theorem Denotes.not_blank {digits : List Char} {number : Nat} (h : Denotes radix digits number) :
    ∀ c ∈ digits, isBlank c = false := by
  intro c hc
  have hsome := exists_denotes_iff.mp ⟨number, h⟩ c hc
  obtain ⟨value, hvalue⟩ := Option.isSome_iff_exists.mp hsome
  rw [digitValue?, Option.filter_eq_some_iff] at hvalue
  apply Hex.not_blank_of_digitValue?
  exact Option.isSome_of_eq_some hvalue.1

end Numeral

end RemoteDebugger
