import Mathlib.Algebra.Group.Nat.Defs
import RemoteDebugger.Number.Numeral
import RemoteDebugger.Text.Whitespace

/-!
# Digits that were written

Hexadecimal digits contain no blank and none of the marks that separate fields or open and close
frames, so that text around them can be cut without a look at their values.  A number written in a
fixed width is read back as itself, and only digits, two for each byte, are read as a byte string.
-/

namespace RemoteDebugger

namespace Hex

open RemoteDebugger.Text

theorem digit_ne_mark {value : Nat} (h : value < 16) (letters : LetterCase) :
    isBlank (digit letters value) = false ∧
      ∀ mark ∈ [':', '+', '$', '#'], digit letters value ≠ mark := by
  have all : ∀ v : Fin 16, ∀ l ∈ [LetterCase.lower, .upper],
      isBlank (digit l v) = false ∧ digit l v ∉ [':', '+', '$', '#'] := by
    decide
  obtain ⟨hblank, hmarks⟩ := all ⟨value, h⟩ letters (by cases letters <;> simp)
  refine ⟨hblank, ?_⟩
  intro mark hmark heq
  exact hmarks (heq ▸ hmark)

theorem digit_ascii {value : Nat} (h : value < 16) (letters : LetterCase) :
    (digit letters value).toNat < 128 := by
  have all : ∀ v : Fin 16, ∀ l ∈ [LetterCase.lower, .upper], (digit l v).toNat < 128 := by
    decide
  exact all ⟨value, h⟩ letters (by cases letters <;> simp)

theorem toNat_lt_of_digitValue? {c : Char} (h : (digitValue? c).isSome = true) :
    c.toNat < 128 := by
  have hle : ∀ high : Char, high.toNat < 128 → c ≤ high → c.toNat < 128 := by
    intro high hhigh hc
    rw [Char.le_def, UInt32.le_iff_toNat_le] at hc
    exact Nat.lt_of_le_of_lt hc hhigh
  unfold digitValue? at h
  split at h
  · next hdigit => exact hle '9' (by decide) hdigit.2
  · split at h
    · next hlower => exact hle 'f' (by decide) hlower.2
    · split at h
      · next hupper => exact hle 'F' (by decide) hupper.2
      · cases h

theorem exists_of_mem_fixed {letters : LetterCase} {width number : Nat} {c : Char}
    (h : c ∈ fixed letters width number) : ∃ value < 16, c = digit letters value := by
  induction width generalizing number with
  | zero => cases h
  | succ width ih =>
      rcases List.mem_append.mp h with hfront | hlast
      · exact ih hfront
      · exact ⟨number % 16, Nat.mod_lt _ (by decide), List.mem_singleton.mp hlast⟩

theorem byte_eq_fixed (letters : LetterCase) (b : UInt8) :
    byte letters b = fixed letters 2 b.toNat := by
  have hhigh : b.toNat / 16 % 16 = b.toNat / 16 := by
    have := b.toNat_lt
    omega
  simp [byte, fixed, hhigh]

theorem exists_of_mem_flatMap_byte {letters : LetterCase} {bytes : Bytes} {c : Char}
    (h : c ∈ bytes.flatMap (byte letters)) : ∃ value < 16, c = digit letters value := by
  obtain ⟨b, -, hc⟩ := List.mem_flatMap.mp h
  rw [byte_eq_fixed] at hc
  exact exists_of_mem_fixed hc

/-! ## Byte strings -/

theorem isSome_of_decodeFrom {read bytes : Bytes} {index : Nat} {text : List Char}
    (heven : text.length % 2 = 0) (h : decodeFrom read index text = .ok bytes) :
    ∀ c ∈ text, (digitValue? c).isSome = true := by
  fun_induction decodeFrom read index text with
  | case1 read index high low rest first second hlow hhigh ih =>
      intro c hc
      simp only [List.mem_cons] at hc
      rcases hc with rfl | rfl | hc
      · simp [hhigh]
      · simp [hlow]
      · have hrest : rest.length % 2 = 0 := by
          simp only [List.length_cons] at heven
          omega
        exact ih hrest h c hc
  | case2 => cases h
  | case3 => cases h
  | case4 text read index hshort =>
      -- a text of even length that does not begin with two characters is empty
      match text, heven with
      | [], _ => simp
      | high :: low :: rest, _ => exact (hshort high low rest rfl).elim

/-- Only digits, two for each byte, are read as a byte string. -/
theorem digits_of_decode {text : List Char} {bytes : Bytes} (h : decode text = .ok bytes) :
    text.length % 2 = 0 ∧ ∀ c ∈ text, (digitValue? c).isSome = true := by
  unfold decode at h
  split at h
  · cases h
  · next hodd =>
      have heven : text.length % 2 = 0 := by omega
      exact ⟨heven, isSome_of_decodeFrom heven h⟩

end Hex

namespace Numeral

open RemoteDebugger.Hex

/-- Every digit is one of radix sixteen. -/
theorem digitValue?_sixteen (c : Char) : digitValue? 16 c = Hex.digitValue? c := by
  cases hdigit : Hex.digitValue? c with
  | none => simp [digitValue?, hdigit]
  | some value => simp [digitValue?, hdigit, Option.filter_some, digitValue?_lt hdigit]

theorem readDigits_fixed_append {letters : LetterCase} {width number value limit : Nat}
    (hnumber : number < 16 ^ width) (hfits : value * 16 ^ width + number < limit)
    (rest : List Char) :
    readDigits 16 limit value (fixed letters width number ++ rest) =
      readDigits 16 limit (value * 16 ^ width + number) rest := by
  induction width generalizing number rest with
  | zero =>
      obtain rfl : number = 0 := by simpa using hnumber
      simp [fixed]
  | succ width ih =>
      have hdigit : number % 16 < 16 := Nat.mod_lt _ (by decide)
      have hsum : (value * 16 ^ width + number / 16) * 16 + number % 16 =
          value * 16 ^ (width + 1) + number := by
        rw [Nat.pow_succ, ← Nat.mul_assoc]
        omega
      have hfront : number / 16 < 16 ^ width := by
        rw [Nat.pow_succ] at hnumber
        omega
      have hlast : digitValue? 16 (digit letters (number % 16)) = some (number % 16) := by
        simp [digitValue?, digitValue?_digit hdigit, Option.filter, hdigit]
      rw [fixed, List.append_assoc, ih hfront (by omega), List.singleton_append, readDigits, hlast]
      simp only [hsum, hfits, if_true]

theorem read_of_head_ne_plus {radix limit : Nat} {c : Char} {rest : List Char} (h : c ≠ '+') :
    read radix limit (c :: rest) = readDigits radix limit 0 (c :: rest) := by
  unfold read
  split
  · next hempty => cases hempty
  · next heq =>
      cases heq
      exact absurd rfl h
  · rfl

/-- A number below the limit that is written in a fixed width is read back. -/
theorem read_fixed {width number limit : Nat} (letters : LetterCase) (hwidth : 0 < width)
    (hnumber : number < 16 ^ width) (hlimit : number < limit) :
    read 16 limit (fixed letters width number) = .ok number := by
  have hread : readDigits 16 limit 0 (fixed letters width number) = .ok number := by
    have happend : readDigits 16 limit 0 (fixed letters width number ++ []) =
        readDigits 16 limit (0 * 16 ^ width + number) [] :=
      readDigits_fixed_append hnumber (by omega) []
    simpa [readDigits] using happend
  cases hdigits : fixed letters width number with
  | nil =>
      have hlength := length_fixed letters width number
      rw [hdigits, List.length_nil] at hlength
      omega
  | cons c rest =>
      have hmem : c ∈ fixed letters width number := hdigits ▸ List.mem_cons_self
      obtain ⟨value, hvalue, rfl⟩ := exists_of_mem_fixed hmem
      have hplus := (digit_ne_mark hvalue letters).2 '+' (by simp)
      rw [read_of_head_ne_plus hplus, ← hdigits, hread]

theorem readWord_fixed (letters : LetterCase) (word : UInt16) :
    readWord 16 (fixed letters 4 word.toNat) = .ok word := by
  have hwidth : word.toNat < 16 ^ 4 := word.toNat_lt
  have hlimit : word.toNat < 65536 := word.toNat_lt
  rw [readWord, read_fixed letters (by decide) hwidth hlimit]
  simp [Except.map]

end Numeral

end RemoteDebugger
