import Mathlib.Data.List.Induction
import Mathlib.Data.Nat.Digits.Defs
import RemoteDebugger.Proofs.Number.Digits

/-!
# What digits denote

The number that a text of digits denotes is said here without a reader of digits: each character has
a value, and the values are the digits of the number, the most significant first.  Two such digits
spell a byte, and `Hex.decode` reads a byte string exactly from the texts that spell it.
-/

namespace RemoteDebugger

namespace Numeral

variable {radix : Nat}

/-- The number that digits of a radix denote. -/
def Denotes (radix : Nat) (digits : List Char) (number : Nat) : Prop :=
  ∃ values : List Nat, digits.map (digitValue? radix) = values.map some ∧
    Nat.ofDigits radix values.reverse = number

theorem denotes_nil {number : Nat} : Denotes radix [] number ↔ number = 0 := by
  constructor
  · rintro ⟨values, hvalues, rfl⟩
    obtain rfl : values = [] := by simpa using hvalues
    rfl
  · rintro rfl
    exact ⟨[], rfl, rfl⟩

/-- One more digit behind the others counts them `radix` times. -/
theorem denotes_concat {digits : List Char} {c : Char} {number : Nat} :
    Denotes radix (digits ++ [c]) number ↔
      ∃ value d, Denotes radix digits value ∧ digitValue? radix c = some d ∧
        number = value * radix + d := by
  constructor
  · rintro ⟨values, hvalues, rfl⟩
    rw [List.map_append, List.map_singleton] at hvalues
    obtain ⟨front, last, rfl, hfront, hlast⟩ := List.map_eq_append_iff.mp hvalues.symm
    obtain ⟨d, rfl, hd⟩ := List.map_eq_singleton_iff.mp hlast
    refine ⟨_, d, ⟨front, hfront.symm, rfl⟩, hd.symm, ?_⟩
    rw [List.reverse_append, List.reverse_singleton, List.singleton_append, Nat.ofDigits_cons]
    ring
  · rintro ⟨value, d, ⟨values, hvalues, rfl⟩, hd, rfl⟩
    refine ⟨values ++ [d], ?_, ?_⟩
    · simp [hvalues, hd]
    · rw [List.reverse_append, List.reverse_singleton, List.singleton_append, Nat.ofDigits_cons]
      ring

/-- Exactly the texts whose characters are all digits denote a number. -/
theorem exists_denotes_iff {digits : List Char} :
    (∃ number, Denotes radix digits number) ↔
      ∀ c ∈ digits, (digitValue? radix c).isSome = true := by
  induction digits using List.reverseRecOn with
  | nil => simp [denotes_nil]
  | append_singleton front last ih =>
      rw [List.forall_mem_append, List.forall_mem_singleton, ← ih, Option.isSome_iff_exists]
      constructor
      · rintro ⟨number, h⟩
        obtain ⟨value, d, hvalue, hd, -⟩ := denotes_concat.mp h
        exact ⟨⟨value, hvalue⟩, d, hd⟩
      · rintro ⟨⟨value, hvalue⟩, d, hd⟩
        exact ⟨value * radix + d, denotes_concat.mpr ⟨value, d, hvalue, hd, rfl⟩⟩

theorem Denotes.unique {digits : List Char} {number other : Nat} (h : Denotes radix digits number)
    (hother : Denotes radix digits other) : number = other := by
  obtain ⟨values, hvalues, rfl⟩ := h
  obtain ⟨values', hvalues', rfl⟩ := hother
  have hsame : values = values' :=
    (List.map_inj_right fun _ _ => Option.some.inj).mp (hvalues.symm.trans hvalues')
  rw [hsame]

theorem digitValue?_lt {c : Char} {d : Nat} (h : digitValue? radix c = some d) : d < radix := by
  rw [digitValue?, Option.filter_eq_some_iff, decide_eq_true_eq] at h
  exact h.2

theorem Denotes.lt {digits : List Char} {number : Nat} (hradix : 1 < radix)
    (h : Denotes radix digits number) : number < radix ^ digits.length := by
  obtain ⟨values, hvalues, rfl⟩ := h
  have hlength : values.reverse.length = digits.length := by
    simpa using (congrArg List.length hvalues).symm
  have hbound : ∀ d ∈ values.reverse, d < radix := by
    intro d hd
    have hmem : some d ∈ digits.map (digitValue? radix) := by
      rw [hvalues]
      exact List.mem_map_of_mem (List.mem_reverse.mp hd)
    obtain ⟨c, -, hc⟩ := List.mem_map.mp hmem
    exact digitValue?_lt hc
  rw [← hlength]
  exact Nat.ofDigits_lt_base_pow_length hradix hbound

theorem Denotes.ascii {digits : List Char} {number : Nat} (h : Denotes 16 digits number) :
    ∀ c ∈ digits, c.toNat < 128 := by
  intro c hc
  have hdigit := exists_denotes_iff.mp ⟨number, h⟩ c hc
  rw [digitValue?_sixteen] at hdigit
  exact Hex.toNat_lt_of_digitValue? hdigit

end Numeral

namespace Hex

open RemoteDebugger.Numeral

/-- Two digits denote sixteen times the value of the first and the value of the second. -/
theorem denotes_pair {high low : Char} {number : Nat} :
    Denotes 16 [high, low] number ↔
      ∃ h l, digitValue? high = some h ∧ digitValue? low = some l ∧ number = 16 * h + l := by
  have hsplit : [high, low] = ([] ++ [high]) ++ [low] := rfl
  rw [hsplit, denotes_concat]
  constructor
  · rintro ⟨value, l, hvalue, hlow, rfl⟩
    obtain ⟨start, h, hstart, hhigh, rfl⟩ := denotes_concat.mp hvalue
    obtain rfl := denotes_nil.mp hstart
    rw [digitValue?_sixteen] at hhigh hlow
    exact ⟨h, l, hhigh, hlow, by omega⟩
  · rintro ⟨h, l, hhigh, hlow, rfl⟩
    rw [← digitValue?_sixteen] at hhigh hlow
    have hfirst : Denotes 16 ([] ++ [high]) h :=
      denotes_concat.mpr ⟨0, h, denotes_nil.mpr rfl, hhigh, by omega⟩
    exact ⟨h, l, hfirst, hlow, by omega⟩

/-- The bytes that a text spells, by two digits each. -/
inductive Spells : List Char → Bytes → Prop
  | nil : Spells [] []
  | cons {high low : Char} {b : UInt8} {digits : List Char} {bytes : Bytes}
      (hbyte : Denotes 16 [high, low] b.toNat) (hlater : Spells digits bytes) :
      Spells (high :: low :: digits) (b :: bytes)

theorem Spells.length_eq {digits : List Char} {bytes : Bytes} (h : Spells digits bytes) :
    digits.length = 2 * bytes.length := by
  induction h with
  | nil => rfl
  | cons _ _ ih =>
      simp only [List.length_cons, ih]
      omega

theorem Spells.isSome_digitValue? {digits : List Char} {bytes : Bytes} (h : Spells digits bytes) :
    ∀ c ∈ digits, (digitValue? c).isSome = true := by
  induction h with
  | nil => simp
  | cons hbyte _ ih =>
      obtain ⟨h, l, hhigh, hlow, -⟩ := denotes_pair.mp hbyte
      simpa [hhigh, hlow] using ih

/-- The byte that two digits denote. -/
theorem toNat_ofNat_of_digits {high low : Char} {h l : Nat} (hhigh : digitValue? high = some h)
    (hlow : digitValue? low = some l) : (UInt8.ofNat (16 * h + l)).toNat = 16 * h + l := by
  have hbound := digitValue?_lt hhigh
  have hbound' := digitValue?_lt hlow
  have hfits : 16 * h + l < 256 := by omega
  exact UInt8.toNat_ofNat_of_lt' hfits

/-! ## Reading a byte string -/

theorem Spells.decodeFrom_eq {digits : List Char} {bytes : Bytes} (h : Spells digits bytes)
    (read : Bytes) (index : Nat) :
    decodeFrom read index digits = .ok (read.reverse ++ bytes) := by
  induction h generalizing read index with
  | nil => simp [decodeFrom]
  | @cons high low b digits bytes hbyte _ ih =>
      obtain ⟨h, l, hhigh, hlow, hvalue⟩ := denotes_pair.mp hbyte
      have hb : UInt8.ofNat (16 * h + l) = b := by
        rw [← hvalue]
        exact UInt8.ofNat_toNat
      simp only [decodeFrom, hhigh, hlow, hb, ih]
      simp

theorem exists_spells_of_decodeFrom {read result : Bytes} {index : Nat} {text : List Char}
    (heven : text.length % 2 = 0) (h : decodeFrom read index text = .ok result) :
    ∃ bytes, Spells text bytes ∧ result = read.reverse ++ bytes := by
  fun_induction decodeFrom read index text with
  | case1 read index high low rest first second hlow hhigh ih =>
      have hrest : rest.length % 2 = 0 := by
        simp only [List.length_cons] at heven
        omega
      obtain ⟨bytes, hspells, rfl⟩ := ih hrest h
      have hbyte : Denotes 16 [high, low] (UInt8.ofNat (16 * first + second)).toNat :=
        denotes_pair.mpr ⟨first, second, hhigh, hlow, toNat_ofNat_of_digits hhigh hlow⟩
      exact ⟨_, .cons hbyte hspells, by simp⟩
  | case2 => cases h
  | case3 => cases h
  | case4 text read index hshort =>
      cases h
      rcases text with _ | ⟨high, _ | ⟨low, rest⟩⟩
      · exact ⟨[], .nil, (List.append_nil _).symm⟩
      · simp at heven
      · exact (hshort high low rest rfl).elim

theorem decode_eq_ok_iff {text : List Char} {bytes : Bytes} :
    decode text = .ok bytes ↔ Spells text bytes := by
  constructor
  · intro h
    obtain ⟨heven, -⟩ := digits_of_decode h
    have hodd : ¬ text.length % 2 = 1 := by omega
    rw [decode, if_neg hodd] at h
    obtain ⟨spelled, hspells, rfl⟩ := exists_spells_of_decodeFrom heven h
    exact hspells
  · intro h
    have hlength := h.length_eq
    have hodd : ¬ text.length % 2 = 1 := by omega
    rw [decode, if_neg hodd, h.decodeFrom_eq]
    rfl

/-- A text of digits, two for each byte, spells bytes. -/
theorem exists_spells {text : List Char} {length : Nat} (hlength : text.length = 2 * length)
    (hdigits : ∀ c ∈ text, (digitValue? c).isSome = true) :
    ∃ bytes, Spells text bytes ∧ bytes.length = length := by
  induction length generalizing text with
  | zero =>
      obtain rfl : text = [] := List.eq_nil_of_length_eq_zero hlength
      exact ⟨[], .nil, rfl⟩
  | succ length ih =>
      match text, hlength with
      | high :: low :: rest, hlength =>
          simp only [List.mem_cons, forall_eq_or_imp] at hdigits
          obtain ⟨hhigh, hlow, hrest⟩ := hdigits
          obtain ⟨h, hhigh⟩ := Option.isSome_iff_exists.mp hhigh
          obtain ⟨l, hlow⟩ := Option.isSome_iff_exists.mp hlow
          have hlength' : rest.length = 2 * length := by
            simp only [List.length_cons] at hlength
            omega
          obtain ⟨bytes, hspells, rfl⟩ := ih hlength' hrest
          have hbyte : Denotes 16 [high, low] (UInt8.ofNat (16 * h + l)).toNat :=
            denotes_pair.mpr ⟨h, l, hhigh, hlow, toNat_ofNat_of_digits hhigh hlow⟩
          exact ⟨_, .cons hbyte hspells, rfl⟩

end Hex

end RemoteDebugger
