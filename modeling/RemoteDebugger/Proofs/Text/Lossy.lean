import Mathlib.Data.List.Basic
import Mathlib.Data.List.Induction
import RemoteDebugger.Proofs.Text.Utf8

/-!
# Lenient reading

A lenient reader takes a byte string for the characters that it encodes.  What encodes none counts
as one replacement character for each byte that begins no encoding, and for each beginning of an
encoding that the next byte does not continue.  `ReadsAs` says so without a reader, and
`decodeLossy` finds that text in every byte string.
-/

namespace RemoteDebugger.Text

/-! ## Encodings by their bytes -/

/-- Whether a byte is of the form that all bytes of an encoding have behind the first one. -/
def IsContinuation (b : UInt8) : Prop :=
  0x80 ≤ b.toNat ∧ b.toNat < 0xC0

theorem isContinuation_iff {b : UInt8} : 0x80 ≤ b ∧ b ≤ 0xBF ↔ IsContinuation b :=
  and_congr_right' Nat.lt_succ_iff.symm

theorem ofNat_eq_iff {number : Nat} {c : Char} (h : number.isValidChar) :
    Char.ofNat number = c ↔ c.toNat = number := by
  constructor
  · rintro rfl
    rw [Char.ofNat, dif_pos h]
    rfl
  · rintro rfl
    exact Char.ofNat_toNat c

section Encodings

variable {c : Char} {b₀ b₁ b₂ b₃ : UInt8}

theorem utf8EncodeChar_eq_one_iff :
    String.utf8EncodeChar c = [b₀] ↔ b₀.toNat < 0x80 ∧ c.toNat = b₀.toNat := by
  have hvalue : c.val.toNat = c.toNat := rfl
  unfold String.utf8EncodeChar
  rw [hvalue]
  dsimp only
  split
  · simp only [List.cons.injEq, ← UInt8.toNat_inj, UInt8.toNat_ofNat', and_true]
    constructor
    · omega
    · omega
  split
  · simp only [List.cons.injEq, reduceCtorEq, and_false, false_iff]
    omega
  split
  · simp only [List.cons.injEq, reduceCtorEq, and_false, false_iff]
    omega
  · simp only [List.cons.injEq, reduceCtorEq, and_false, false_iff]
    omega

theorem utf8EncodeChar_eq_two_iff :
    String.utf8EncodeChar c = [b₀, b₁] ↔
      (0xC2 ≤ b₀.toNat ∧ b₀.toNat < 0xE0) ∧ IsContinuation b₁ ∧
        c.toNat = (b₀.toNat - 0xC0) * 64 + (b₁.toNat - 0x80) := by
  have hvalue : c.val.toNat = c.toNat := rfl
  unfold String.utf8EncodeChar IsContinuation
  rw [hvalue]
  dsimp only
  split
  · simp only [List.cons.injEq, reduceCtorEq, and_false, false_iff]
    omega
  split
  · simp only [List.cons.injEq, ← UInt8.toNat_inj, UInt8.toNat_ofNat', and_true]
    constructor
    · omega
    · omega
  split
  · simp only [List.cons.injEq, reduceCtorEq, and_false, false_iff]
    omega
  · simp only [List.cons.injEq, reduceCtorEq, and_false, false_iff]
    omega

theorem utf8EncodeChar_eq_three_iff :
    String.utf8EncodeChar c = [b₀, b₁, b₂] ↔
      (0xE0 ≤ b₀.toNat ∧ b₀.toNat < 0xF0) ∧ IsContinuation b₁ ∧ IsContinuation b₂ ∧
        0x800 ≤ c.toNat ∧
        c.toNat = ((b₀.toNat - 0xE0) * 64 + (b₁.toNat - 0x80)) * 64 + (b₂.toNat - 0x80) := by
  have hvalue : c.val.toNat = c.toNat := rfl
  unfold String.utf8EncodeChar IsContinuation
  rw [hvalue]
  dsimp only
  split
  · simp only [List.cons.injEq, reduceCtorEq, and_false, false_iff]
    omega
  split
  · simp only [List.cons.injEq, reduceCtorEq, and_false, false_iff]
    omega
  split
  · simp only [List.cons.injEq, ← UInt8.toNat_inj, UInt8.toNat_ofNat', and_true]
    constructor
    · omega
    · omega
  · simp only [List.cons.injEq, reduceCtorEq, and_false, false_iff]
    omega

theorem utf8EncodeChar_eq_four_iff :
    String.utf8EncodeChar c = [b₀, b₁, b₂, b₃] ↔
      (0xF0 ≤ b₀.toNat ∧ b₀.toNat < 0xF5) ∧ IsContinuation b₁ ∧ IsContinuation b₂ ∧
        IsContinuation b₃ ∧ 0x10000 ≤ c.toNat ∧
        c.toNat = (((b₀.toNat - 0xF0) * 64 + (b₁.toNat - 0x80)) * 64 + (b₂.toNat - 0x80)) * 64 +
          (b₃.toNat - 0x80) := by
  have hvalue : c.val.toNat = c.toNat := rfl
  have hvalid := c.valid
  simp only [UInt32.isValidChar, Nat.isValidChar, hvalue] at hvalid
  unfold String.utf8EncodeChar IsContinuation
  rw [hvalue]
  dsimp only
  split
  · simp only [List.cons.injEq, reduceCtorEq, and_false, false_iff]
    omega
  split
  · simp only [List.cons.injEq, reduceCtorEq, and_false, false_iff]
    omega
  split
  · simp only [List.cons.injEq, reduceCtorEq, and_false, false_iff]
    omega
  · simp only [List.cons.injEq, ← UInt8.toNat_inj, UInt8.toNat_ofNat', and_true]
    constructor
    · omega
    · omega

/-- Whether a byte is of the form of the first of an encoding with `count` others behind it. -/
def Announces (b : UInt8) (count : Nat) : Prop :=
  (b.toNat < 0x80 ∧ count = 0) ∨
    ((0xC2 ≤ b.toNat ∧ b.toNat < 0xE0) ∧ count = 1) ∨
    ((0xE0 ≤ b.toNat ∧ b.toNat < 0xF0) ∧ count = 2) ∨
    ((0xF0 ≤ b.toNat ∧ b.toNat < 0xF5) ∧ count = 3)

theorem announces_of_utf8EncodeChar {later : Bytes} (h : String.utf8EncodeChar c = b₀ :: later) :
    Announces b₀ later.length := by
  rcases later with _ | ⟨b₁, _ | ⟨b₂, _ | ⟨b₃, _ | ⟨b₄, later⟩⟩⟩⟩
  · exact .inl ⟨(utf8EncodeChar_eq_one_iff.mp h).1, rfl⟩
  · exact .inr (.inl ⟨(utf8EncodeChar_eq_two_iff.mp h).1, rfl⟩)
  · exact .inr (.inr (.inl ⟨(utf8EncodeChar_eq_three_iff.mp h).1, rfl⟩))
  · exact .inr (.inr (.inr ⟨(utf8EncodeChar_eq_four_iff.mp h).1, rfl⟩))
  · have hlength := congrArg List.length h
    have hsize := c.utf8Size_le_four
    rw [String.length_utf8EncodeChar] at hlength
    simp only [List.length_cons] at hlength
    omega

end Encodings

/-! ## The automaton on one character -/

/-- What a byte makes of an incomplete character that it continues. -/
def Incomplete.continued (state : Incomplete) (b : UInt8) : Lead :=
  let bits := state.bits * 64 + (b.toNat - 0x80)
  if state.owed ≤ 1 then .complete (Char.ofNat bits)
  else .incomplete ⟨state.owed - 1, 0x80, 0xBF, bits⟩

/-- Read a byte behind those that have been read of a character. -/
def Lead.next : Lead → UInt8 → Lead
  | .incomplete state, b =>
    if state.low ≤ b ∧ b ≤ state.high then state.continued b else .invalid
  | _, _ => .invalid

theorem foldl_next_invalid (bytes : Bytes) : bytes.foldl Lead.next .invalid = .invalid := by
  induction bytes with
  | nil => rfl
  | cons b later ih => exact ih

theorem Lead.next_incomplete_eq_invalid_iff {state : Incomplete} {b : UInt8} :
    next (.incomplete state) b = .invalid ↔ ¬ (state.low ≤ b ∧ b ≤ state.high) := by
  have hcontinued : state.continued b ≠ .invalid := by
    unfold Incomplete.continued
    split <;> simp
  rw [next]
  split
  · next hrange => simp [hrange, hcontinued]
  · next hrange => simp [hrange]

section Completion

variable {c d : Char} {b : UInt8} {later : Bytes} {state : Incomplete}

theorem foldl_next_complete_iff :
    later.foldl Lead.next (.complete d) = .complete c ↔ later = [] ∧ d = c := by
  cases later with
  | nil => simp
  | cons b later =>
      have hinvalid : (b :: later).foldl Lead.next (.complete d) = .invalid :=
        foldl_next_invalid later
      simp [hinvalid]

theorem foldl_next_cons_iff :
    (b :: later).foldl Lead.next (.incomplete state) = .complete c ↔
      (state.low ≤ b ∧ b ≤ state.high) ∧
        later.foldl Lead.next (state.continued b) = .complete c := by
  rw [List.foldl_cons, Lead.next]
  split
  · next hrange => simp [hrange]
  · next hrange => simp [hrange, foldl_next_invalid]

theorem foldl_next_last_iff {low high : UInt8} {bits : Nat} :
    [b].foldl Lead.next (.incomplete ⟨1, low, high, bits⟩) = .complete c ↔
      (low ≤ b ∧ b ≤ high) ∧ Char.ofNat (bits * 64 + (b.toNat - 0x80)) = c :=
  foldl_next_cons_iff.trans
    (and_congr_right' (foldl_next_complete_iff.trans (and_iff_right rfl)))

theorem foldl_next_further_iff {owed bits : Nat} {low high : UInt8} :
    (b :: later).foldl Lead.next (.incomplete ⟨owed + 2, low, high, bits⟩) = .complete c ↔
      (low ≤ b ∧ b ≤ high) ∧ later.foldl Lead.next
        (.incomplete ⟨owed + 1, 0x80, 0xBF, bits * 64 + (b.toNat - 0x80)⟩) = .complete c :=
  foldl_next_cons_iff

/-- A character is complete behind as many bytes as it was owed. -/
theorem length_of_foldl_next (howed : 1 ≤ state.owed)
    (h : later.foldl Lead.next (.incomplete state) = .complete c) :
    later.length = state.owed := by
  induction later generalizing state with
  | nil => cases h
  | cons b later ih =>
      obtain ⟨-, hlater⟩ := foldl_next_cons_iff.mp h
      unfold Incomplete.continued at hlater
      split at hlater
      · obtain ⟨rfl, -⟩ := foldl_next_complete_iff.mp hlater
        simp only [List.length_cons, List.length_nil]
        omega
      · next hmore =>
          have hlength := ih (by dsimp only; omega) hlater
          simp only [List.length_cons, hlength]
          omega

end Completion

/-! ### The first byte -/

namespace Lead

variable {b : UInt8}

theorem ofByte_of_one (h : b.toNat < 0x80) : ofByte b = .complete (Char.ofUInt8 b) :=
  if_pos h

theorem ofByte_of_two (h : 0xC2 ≤ b.toNat ∧ b.toNat < 0xE0) :
    ofByte b = .incomplete ⟨1, 0x80, 0xBF, b.toNat - 0xC0⟩ := by
  have hone : ¬ b < 0x80 := Nat.not_lt_of_le (Nat.le_trans (by decide) h.1)
  have hinvalid : ¬ b < 0xC2 := Nat.not_lt_of_le h.1
  have htwo : b < 0xE0 := h.2
  rw [ofByte, if_neg hone, if_neg hinvalid, if_pos htwo]

/-- The range of the second byte leaves out encodings that are longer than needed and surrogates. -/
theorem exists_ofByte_of_three (h : 0xE0 ≤ b.toNat ∧ b.toNat < 0xF0) :
    ∃ low high, ofByte b = .incomplete ⟨2, low, high, b.toNat - 0xE0⟩ ∧
      ∀ next : UInt8, low ≤ next ∧ next ≤ high ↔ IsContinuation next ∧
        let bits := (b.toNat - 0xE0) * 64 + (next.toNat - 0x80)
        0x20 ≤ bits ∧ ¬ (0x360 ≤ bits ∧ bits < 0x380) := by
  have hone : ¬ b < 0x80 := Nat.not_lt_of_le (Nat.le_trans (by decide) h.1)
  have hinvalid : ¬ b < 0xC2 := Nat.not_lt_of_le (Nat.le_trans (by decide) h.1)
  have htwo : ¬ b < 0xE0 := Nat.not_lt_of_le h.1
  have hthree : b < 0xF0 := h.2
  rw [ofByte, if_neg hone, if_neg hinvalid, if_neg htwo]
  unfold IsContinuation
  by_cases hfirst : b = 0xE0
  · subst hfirst
    refine ⟨0xA0, 0xBF, rfl, fun next => ?_⟩
    simp only [UInt8.le_iff_toNat_le, UInt8.reduceToNat]
    omega
  by_cases hsurrogate : b = 0xED
  · subst hsurrogate
    refine ⟨0x80, 0x9F, rfl, fun next => ?_⟩
    simp only [UInt8.le_iff_toNat_le, UInt8.reduceToNat]
    omega
  · rw [if_neg hfirst, if_neg hsurrogate, if_pos hthree]
    simp only [← UInt8.toNat_inj, UInt8.reduceToNat] at hfirst hsurrogate
    refine ⟨0x80, 0xBF, rfl, fun next => ?_⟩
    simp only [UInt8.le_iff_toNat_le, UInt8.reduceToNat]
    omega

/-- The range of the second byte leaves out encodings that are longer than needed and numbers behind
the last character. -/
theorem exists_ofByte_of_four (h : 0xF0 ≤ b.toNat ∧ b.toNat < 0xF5) :
    ∃ low high, ofByte b = .incomplete ⟨3, low, high, b.toNat - 0xF0⟩ ∧
      ∀ next : UInt8, low ≤ next ∧ next ≤ high ↔ IsContinuation next ∧
        let bits := (b.toNat - 0xF0) * 64 + (next.toNat - 0x80)
        0x10 ≤ bits ∧ bits < 0x110 := by
  have hone : ¬ b < 0x80 := Nat.not_lt_of_le (Nat.le_trans (by decide) h.1)
  have hinvalid : ¬ b < 0xC2 := Nat.not_lt_of_le (Nat.le_trans (by decide) h.1)
  have htwo : ¬ b < 0xE0 := Nat.not_lt_of_le (Nat.le_trans (by decide) h.1)
  have hthree : ¬ b < 0xF0 := Nat.not_lt_of_le h.1
  have hnot : b ≠ 0xE0 ∧ b ≠ 0xED := by
    simp only [ne_eq, ← UInt8.toNat_inj, UInt8.reduceToNat]
    omega
  rw [ofByte, if_neg hone, if_neg hinvalid, if_neg htwo, if_neg hnot.1, if_neg hnot.2,
    if_neg hthree]
  unfold IsContinuation
  by_cases hfirst : b = 0xF0
  · subst hfirst
    refine ⟨0x90, 0xBF, rfl, fun next => ?_⟩
    simp only [UInt8.le_iff_toNat_le, UInt8.reduceToNat]
    omega
  by_cases hlast : b = 0xF4
  · subst hlast
    refine ⟨0x80, 0x8F, rfl, fun next => ?_⟩
    simp only [UInt8.le_iff_toNat_le, UInt8.reduceToNat]
    omega
  · simp only [← UInt8.toNat_inj, UInt8.reduceToNat] at hfirst hlast
    have hbetween : b < 0xF4 := UInt8.lt_iff_toNat_lt.mpr (show b.toNat < 0xF4 by omega)
    rw [if_neg (by rwa [← UInt8.toNat_inj]), if_pos hbetween]
    refine ⟨0x80, 0xBF, rfl, fun next => ?_⟩
    simp only [UInt8.le_iff_toNat_le, UInt8.reduceToNat]
    omega

theorem ofByte_of_none (h : (0x80 ≤ b.toNat ∧ b.toNat < 0xC2) ∨ 0xF5 ≤ b.toNat) :
    ofByte b = .invalid := by
  have hone : ¬ b < 0x80 := (Nat.not_lt_of_le (by omega) : ¬ b.toNat < 0x80)
  rcases h with h | h
  · have hinvalid : b < 0xC2 := h.2
    rw [ofByte, if_neg hone, if_pos hinvalid]
  · have hother : ¬ b < 0xC2 ∧ ¬ b < 0xE0 ∧ b ≠ 0xE0 ∧ b ≠ 0xED ∧ ¬ b < 0xF0 ∧ b ≠ 0xF0 ∧
        ¬ b < 0xF4 ∧ b ≠ 0xF4 := by
      simp only [ne_eq, ← UInt8.toNat_inj, UInt8.lt_iff_toNat_lt, UInt8.reduceToNat]
      omega
    simp only [ofByte, hone, hother, if_false]

end Lead

/-! ### Whole characters -/

section Characters

variable {c : Char} {b : UInt8} {later : Bytes}

theorem announces_of_foldl_next (h : later.foldl Lead.next (.ofByte b) = .complete c) :
    Announces b later.length := by
  by_cases hone : b.toNat < 0x80
  · rw [Lead.ofByte_of_one hone, foldl_next_complete_iff] at h
    exact .inl ⟨hone, List.length_eq_zero_iff.mpr h.1⟩
  by_cases htwo : 0xC2 ≤ b.toNat ∧ b.toNat < 0xE0
  · rw [Lead.ofByte_of_two htwo] at h
    exact .inr (.inl ⟨htwo, length_of_foldl_next (Nat.le_refl 1) h⟩)
  by_cases hthree : 0xE0 ≤ b.toNat ∧ b.toNat < 0xF0
  · obtain ⟨low, high, hlead, -⟩ := Lead.exists_ofByte_of_three hthree
    rw [hlead] at h
    exact .inr (.inr (.inl ⟨hthree, length_of_foldl_next (Nat.le_add_left 1 1) h⟩))
  by_cases hfour : 0xF0 ≤ b.toNat ∧ b.toNat < 0xF5
  · obtain ⟨low, high, hlead, -⟩ := Lead.exists_ofByte_of_four hfour
    rw [hlead] at h
    exact .inr (.inr (.inr ⟨hfour, length_of_foldl_next (Nat.le_add_left 1 2) h⟩))
  · rw [Lead.ofByte_of_none (by omega), foldl_next_invalid] at h
    cases h

theorem foldl_next_ofByte_iff_of_announces (h : Announces b later.length) :
    later.foldl Lead.next (.ofByte b) = .complete c ↔ String.utf8EncodeChar c = b :: later := by
  rcases h with ⟨hb, hlength⟩ | ⟨hb, hlength⟩ | ⟨hb, hlength⟩ | ⟨hb, hlength⟩
  · obtain rfl := List.length_eq_zero_iff.mp hlength
    rw [Lead.ofByte_of_one hb, foldl_next_complete_iff, utf8EncodeChar_eq_one_iff,
      and_iff_right rfl, and_iff_right hb, ← Char.toNat_inj, toNat_ofUInt8, eq_comm]
  · obtain ⟨b₁, rfl⟩ := List.length_eq_one_iff.mp hlength
    rw [Lead.ofByte_of_two hb, foldl_next_last_iff, utf8EncodeChar_eq_two_iff,
      isContinuation_iff, and_iff_right hb]
    refine and_congr_right fun h₁ => ofNat_eq_iff ?_
    unfold IsContinuation at h₁
    omega
  · obtain ⟨b₁, b₂, rfl⟩ := List.length_eq_two.mp hlength
    obtain ⟨low, high, hlead, hrange⟩ := Lead.exists_ofByte_of_three hb
    rw [hlead, foldl_next_further_iff, foldl_next_last_iff, utf8EncodeChar_eq_three_iff,
      isContinuation_iff, and_iff_right hb, hrange]
    have hvalid : c.toNat.isValidChar := c.valid
    constructor
    · rintro ⟨⟨h₁, hbits⟩, h₂, hc⟩
      unfold IsContinuation at *
      have hnumber := (ofNat_eq_iff (by omega)).mp hc
      refine ⟨h₁, h₂, ?_, hnumber⟩
      omega
    · rintro ⟨h₁, h₂, hleast, hnumber⟩
      have hc := (ofNat_eq_iff (hnumber ▸ hvalid)).mpr hnumber
      refine ⟨⟨h₁, ?_⟩, h₂, hc⟩
      unfold IsContinuation at *
      omega
  · obtain ⟨b₁, b₂, b₃, rfl⟩ := List.length_eq_three.mp hlength
    obtain ⟨low, high, hlead, hrange⟩ := Lead.exists_ofByte_of_four hb
    rw [hlead, foldl_next_further_iff, foldl_next_further_iff, foldl_next_last_iff,
      utf8EncodeChar_eq_four_iff, isContinuation_iff, isContinuation_iff, and_iff_right hb,
      hrange]
    have hvalid : c.toNat.isValidChar := c.valid
    constructor
    · rintro ⟨⟨h₁, hbits⟩, h₂, h₃, hc⟩
      unfold IsContinuation at *
      have hnumber := (ofNat_eq_iff (by omega)).mp hc
      refine ⟨h₁, h₂, h₃, ?_, hnumber⟩
      omega
    · rintro ⟨h₁, h₂, h₃, hleast, hnumber⟩
      have hc := (ofNat_eq_iff (hnumber ▸ hvalid)).mpr hnumber
      refine ⟨⟨h₁, ?_⟩, h₂, h₃, hc⟩
      unfold IsContinuation at *
      omega

/-- The automaton completes a character exactly behind its encoding. -/
theorem foldl_next_ofByte_iff :
    later.foldl Lead.next (.ofByte b) = .complete c ↔ String.utf8EncodeChar c = b :: later := by
  constructor
  · intro h
    exact (foldl_next_ofByte_iff_of_announces (announces_of_foldl_next h)).mp h
  · intro h
    exact (foldl_next_ofByte_iff_of_announces (announces_of_utf8EncodeChar h)).mpr h

end Characters

/-! ### Beginnings of characters -/

/-- Whether an encoding begins with these bytes, or consists of them. -/
def Begins (part : Bytes) : Prop :=
  ∃ c more, String.utf8EncodeChar c = part ++ more

/-- A character that is owed bytes, with a range for the next one that is not empty. -/
structure Incomplete.IsOpen (state : Incomplete) : Prop where
  owed_pos : 0 < state.owed
  low_le : state.low ≤ state.high

theorem isOpen_of_continued {state after : Incomplete} {b : UInt8}
    (h : state.continued b = .incomplete after) : after.IsOpen := by
  unfold Incomplete.continued at h
  split at h
  · cases h
  · next hmore =>
      cases h
      exact ⟨Nat.sub_pos_of_lt (Nat.lt_of_not_le hmore), by simp⟩

theorem isOpen_of_ofByte {b : UInt8} {state : Incomplete} (h : Lead.ofByte b = .incomplete state) :
    state.IsOpen := by
  unfold Lead.ofByte at h
  repeat' split at h
  all_goals cases h
  all_goals exact ⟨by simp, by simp⟩

/-- An open character can be completed. -/
theorem Incomplete.IsOpen.exists_foldl_next {state : Incomplete} (h : state.IsOpen) :
    ∃ (more : Bytes) (c : Char), more.foldl Lead.next (.incomplete state) = .complete c := by
  obtain ⟨owed, low, high, bits⟩ := state
  obtain ⟨howed, hrange⟩ := h
  induction owed generalizing low high bits with
  | zero => cases howed
  | succ owed ih =>
      have hlow : low ≤ low ∧ low ≤ high := ⟨UInt8.le_refl low, hrange⟩
      cases owed with
      | zero => exact ⟨[low], _, foldl_next_last_iff.mpr ⟨hlow, rfl⟩⟩
      | succ owed =>
          obtain ⟨more, c, hmore⟩ := ih 0x80 0xBF (bits * 64 + (low.toNat - 0x80))
            (Nat.succ_pos owed) (show (0x80 : UInt8) ≤ 0xBF by decide)
          exact ⟨low :: more, c, foldl_next_further_iff.mpr ⟨hlow, hmore⟩⟩

section Beginnings

variable {b : UInt8} {later : Bytes} {state : Incomplete}

theorem exists_of_foldl_next_concat {last : UInt8} {lead : Lead}
    (h : (later ++ [last]).foldl Lead.next (.ofByte b) = lead) (hlead : lead ≠ .invalid) :
    ∃ state, later.foldl Lead.next (.ofByte b) = .incomplete state ∧
      (state.low ≤ last ∧ last ≤ state.high) ∧ state.continued last = lead := by
  rw [List.foldl_append, List.foldl_cons, List.foldl_nil] at h
  cases hbefore : later.foldl Lead.next (.ofByte b) with
  | complete c =>
      rw [hbefore] at h
      exact absurd h.symm hlead
  | invalid =>
      rw [hbefore] at h
      exact absurd h.symm hlead
  | incomplete state =>
      rw [hbefore, Lead.next] at h
      split at h
      · next hrange => exact ⟨state, rfl, hrange, h⟩
      · exact absurd h.symm hlead

theorem isOpen_of_foldl_next (h : later.foldl Lead.next (.ofByte b) = .incomplete state) :
    state.IsOpen := by
  rcases List.eq_nil_or_concat later with rfl | ⟨front, last, rfl⟩
  · exact isOpen_of_ofByte h
  · rw [List.concat_eq_append] at h
    obtain ⟨_, -, -, hcontinued⟩ := exists_of_foldl_next_concat h (by simp)
    exact isOpen_of_continued hcontinued

/-- The automaton refuses bytes exactly if no encoding begins with them. -/
theorem foldl_next_eq_invalid_iff :
    later.foldl Lead.next (.ofByte b) = .invalid ↔ ¬ Begins (b :: later) := by
  constructor
  · rintro h ⟨c, more, hencode⟩
    rw [List.cons_append] at hencode
    have hcomplete := foldl_next_ofByte_iff.mpr hencode
    rw [List.foldl_append, h, foldl_next_invalid] at hcomplete
    cases hcomplete
  · intro h
    cases hlead : later.foldl Lead.next (.ofByte b) with
    | invalid => rfl
    | complete c =>
        refine absurd ⟨c, [], ?_⟩ h
        rw [List.append_nil]
        exact foldl_next_ofByte_iff.mp hlead
    | incomplete state =>
        obtain ⟨more, c, hmore⟩ := (isOpen_of_foldl_next hlead).exists_foldl_next
        refine absurd ⟨c, more, ?_⟩ h
        rw [← hlead, ← List.foldl_append] at hmore
        exact foldl_next_ofByte_iff.mp hmore

end Beginnings

/-! ## Whole byte strings -/

/-- The text that bytes are read as: a character for each encoding, and one replacement character
for each byte that begins no encoding and for each beginning of an encoding that the next byte, if
there is one, does not continue. -/
inductive ReadsAs : Bytes → List Char → Prop
  | nil : ReadsAs [] []
  | character {rest : Bytes} {text : List Char} (c : Char) (hrest : ReadsAs rest text) :
      ReadsAs (String.utf8EncodeChar c ++ rest) (c :: text)
  | stray {b : UInt8} {rest : Bytes} {text : List Char} (hb : ¬ Begins [b])
      (hrest : ReadsAs rest text) : ReadsAs (b :: rest) (replacement :: text)
  | unfinished {b : UInt8} {later rest : Bytes} {text : List Char} (hbegins : Begins (b :: later))
      (hcut : ∀ c, String.utf8EncodeChar c ≠ b :: later)
      (hnext : ∀ next ∈ rest.head?, ¬ Begins (b :: later ++ [next])) (hrest : ReadsAs rest text) :
      ReadsAs (b :: later ++ rest) (replacement :: text)

/-- The state behind the characters `read` and what has been read of the next one. -/
def LossyState.ofLead (read : List Char) : Lead → LossyState
  | .complete c => ⟨c :: read, none⟩
  | .incomplete state => ⟨read, some state⟩
  | .invalid => ⟨replacement :: read, none⟩

namespace LossyState

variable {read : List Char} {b : UInt8} {later : Bytes}

theorem start_eq : start read b = ofLead read (.ofByte b) := by
  unfold start
  cases Lead.ofByte b <;> rfl

theorem step_none : step ⟨read, none⟩ b = ofLead read (.ofByte b) :=
  start_eq

theorem step_some {state : Incomplete} :
    step ⟨read, some state⟩ b =
      if state.low ≤ b ∧ b ≤ state.high then ofLead read (state.continued b)
      else ofLead (replacement :: read) (.ofByte b) := by
  rw [← start_eq]
  simp only [step, Incomplete.continued]
  split
  · split <;> rfl
  · rfl

/-- As long as the bytes read begin an encoding, the state is theirs. -/
theorem foldl_step_eq (h : later.foldl Lead.next (.ofByte b) ≠ .invalid) :
    (b :: later).foldl step ⟨read, none⟩ = ofLead read (later.foldl Lead.next (.ofByte b)) := by
  induction later using List.reverseRecOn with
  | nil => exact step_none
  | append_singleton front last ih =>
      obtain ⟨state, hfront, hrange, hcontinued⟩ := exists_of_foldl_next_concat rfl h
      have hbefore := ih (by simp [hfront])
      rw [← List.cons_append, List.foldl_append, hbefore, hfront, ofLead, List.foldl_cons,
        List.foldl_nil, step_some, if_pos hrange, hcontinued]

/-- What a byte makes of the state does not depend on the characters before. -/
theorem exists_step_eq (current : Option Incomplete) (b : UInt8) :
    ∃ new after, ∀ read, step ⟨read, current⟩ b = ⟨new ++ read, after⟩ := by
  have hlead : ∀ lead, ∃ new after, ∀ read, ofLead read lead = ⟨new ++ read, after⟩ := by
    intro lead
    cases lead with
    | complete c => exact ⟨[c], none, fun _ => rfl⟩
    | incomplete state => exact ⟨[], some state, fun _ => rfl⟩
    | invalid => exact ⟨[replacement], none, fun _ => rfl⟩
  cases current with
  | none => exact hlead (.ofByte b)
  | some state =>
      simp only [step_some]
      split
      · exact hlead (state.continued b)
      · obtain ⟨new, after, hnew⟩ := hlead (.ofByte b)
        refine ⟨new ++ [replacement], after, fun read => ?_⟩
        rw [hnew, List.append_assoc, List.singleton_append]

theorem finish_foldl (read : List Char) (current : Option Incomplete) (bytes : Bytes) :
    (bytes.foldl step ⟨read, current⟩).finish =
      read.reverse ++ (bytes.foldl step ⟨[], current⟩).finish := by
  induction bytes generalizing read current with
  | nil => cases current <;> simp [finish]
  | cons b later ih =>
      obtain ⟨new, after, hstep⟩ := exists_step_eq current b
      rw [List.foldl_cons, List.foldl_cons, hstep, hstep, ih, ih (new ++ [])]
      simp

end LossyState

/-! ### Equations of the reader -/

open LossyState

section Equations

variable {b : UInt8} {later : Bytes}

theorem decodeLossy_append_of_complete {c : Char} (rest : Bytes)
    (h : later.foldl Lead.next (.ofByte b) = .complete c) :
    decodeLossy (b :: later ++ rest) = c :: decodeLossy rest := by
  have hstate : (b :: later).foldl step {} = ⟨[c], none⟩ := by
    rw [foldl_step_eq (by simp [h]), h, ofLead]
  rw [decodeLossy, List.foldl_append, hstate, finish_foldl]
  rfl

theorem decodeLossy_append_character (c : Char) (rest : Bytes) :
    decodeLossy (String.utf8EncodeChar c ++ rest) = c :: decodeLossy rest := by
  obtain ⟨b, later, hencode⟩ := List.exists_cons_of_ne_nil (String.utf8EncodeChar_ne_nil (c := c))
  rw [hencode]
  exact decodeLossy_append_of_complete rest (foldl_next_ofByte_iff.mpr hencode)

theorem decodeLossy_cons_stray (rest : Bytes) (h : ¬ Begins [b]) :
    decodeLossy (b :: rest) = replacement :: decodeLossy rest := by
  have hlead : Lead.ofByte b = .invalid := foldl_next_eq_invalid_iff.mpr h
  have hstate : step {} b = ⟨[replacement], none⟩ := by
    rw [step_none, hlead, ofLead]
  rw [decodeLossy, List.foldl_cons, hstate, finish_foldl]
  rfl

theorem exists_incomplete (hbegins : Begins (b :: later))
    (hcut : ∀ c, String.utf8EncodeChar c ≠ b :: later) :
    ∃ state, later.foldl Lead.next (.ofByte b) = .incomplete state := by
  cases hlead : later.foldl Lead.next (.ofByte b) with
  | complete c => exact absurd (foldl_next_ofByte_iff.mp hlead) (hcut c)
  | incomplete state => exact ⟨state, rfl⟩
  | invalid => exact absurd hbegins (foldl_next_eq_invalid_iff.mp hlead)

theorem decodeLossy_append_unfinished {rest : Bytes} (hbegins : Begins (b :: later))
    (hcut : ∀ c, String.utf8EncodeChar c ≠ b :: later)
    (hnext : ∀ next ∈ rest.head?, ¬ Begins (b :: later ++ [next])) :
    decodeLossy (b :: later ++ rest) = replacement :: decodeLossy rest := by
  obtain ⟨state, hstate⟩ := exists_incomplete hbegins hcut
  have hbefore : (b :: later).foldl step {} = ⟨[], some state⟩ := by
    rw [foldl_step_eq (by simp [hstate]), hstate, ofLead]
  rw [decodeLossy, List.foldl_append, hbefore]
  cases rest with
  | nil => rfl
  | cons next rest =>
      have hrefused : (later ++ [next]).foldl Lead.next (.ofByte b) = .invalid :=
        foldl_next_eq_invalid_iff.mpr (hnext next rfl)
      rw [List.foldl_append, hstate, List.foldl_cons, List.foldl_nil,
        Lead.next_incomplete_eq_invalid_iff] at hrefused
      have hagain : step ⟨[], some state⟩ next = step ⟨[replacement], none⟩ next := by
        rw [step_some, if_neg hrefused, step_none]
      rw [List.foldl_cons, hagain, ← List.foldl_cons, finish_foldl]
      rfl

end Equations

/-! ### The text of every byte string -/

theorem ReadsAs.decodeLossy_eq {bytes : Bytes} {text : List Char} (h : ReadsAs bytes text) :
    decodeLossy bytes = text := by
  induction h with
  | nil => rfl
  | character c _ ih => rw [decodeLossy_append_character, ih]
  | stray hb _ ih => rw [decodeLossy_cons_stray _ hb, ih]
  | unfinished hbegins hcut hnext _ ih =>
      rw [decodeLossy_append_unfinished hbegins hcut hnext, ih]

theorem readsAs_of_complete {b : UInt8} {later rest : Bytes} {c : Char} {text : List Char}
    (h : later.foldl Lead.next (.ofByte b) = .complete c) (hrest : ReadsAs rest text) :
    ReadsAs (b :: later ++ rest) (c :: text) := by
  rw [← foldl_next_ofByte_iff.mp h]
  exact .character c hrest

theorem readsAs_of_incomplete {b : UInt8} {later rest : Bytes} {state : Incomplete}
    {text : List Char} (h : later.foldl Lead.next (.ofByte b) = .incomplete state)
    (hnext : ∀ next ∈ rest.head?, Lead.next (.incomplete state) next = .invalid)
    (hrest : ReadsAs rest text) : ReadsAs (b :: later ++ rest) (replacement :: text) := by
  refine .unfinished ?_ ?_ ?_ hrest
  · have hvalid : later.foldl Lead.next (.ofByte b) ≠ .invalid := by simp [h]
    rwa [ne_eq, foldl_next_eq_invalid_iff, not_not] at hvalid
  · intro c hencode
    rw [← foldl_next_ofByte_iff, h] at hencode
    cases hencode
  · intro next hmem
    rw [List.cons_append, ← foldl_next_eq_invalid_iff, List.foldl_append, h]
    exact hnext next hmem

/-- A byte string is read on its own, and behind any bytes of an incomplete character. -/
theorem exists_readsAs (bytes : Bytes) :
    (∃ text, ReadsAs bytes text) ∧
      ∀ (b : UInt8) (later : Bytes) (state : Incomplete),
        later.foldl Lead.next (.ofByte b) = .incomplete state →
          ∃ text, ReadsAs (b :: later ++ bytes) text := by
  induction bytes with
  | nil =>
      refine ⟨⟨[], .nil⟩, fun b later state h => ?_⟩
      exact ⟨_, readsAs_of_incomplete h (by simp) .nil⟩
  | cons first rest ih =>
      obtain ⟨⟨text, htext⟩, hopen⟩ := ih
      have halone : ∃ text, ReadsAs (first :: rest) text := by
        cases hlead : Lead.ofByte first with
        | complete c => exact ⟨_, @readsAs_of_complete first [] rest c text hlead htext⟩
        | incomplete state => exact hopen first [] state hlead
        | invalid => exact ⟨_, .stray (foldl_next_eq_invalid_iff.mp hlead) htext⟩
      refine ⟨halone, fun b later state h => ?_⟩
      have hconcat : b :: later ++ first :: rest = b :: (later ++ [first]) ++ rest := by simp
      have hnext : (later ++ [first]).foldl Lead.next (.ofByte b) =
          Lead.next (.incomplete state) first := by
        rw [List.foldl_append, h]
        rfl
      cases hlead : Lead.next (.incomplete state) first with
      | complete c =>
          rw [hconcat]
          exact ⟨_, readsAs_of_complete (hnext.trans hlead) htext⟩
      | incomplete after =>
          rw [hconcat]
          exact hopen b (later ++ [first]) after (hnext.trans hlead)
      | invalid =>
          obtain ⟨behind, hbehind⟩ := halone
          exact ⟨_, readsAs_of_incomplete h (by simpa using hlead) hbehind⟩

/-- The lenient reader gives every byte string the one text that it is read as. -/
theorem readsAs_iff {bytes : Bytes} {text : List Char} :
    ReadsAs bytes text ↔ decodeLossy bytes = text := by
  refine ⟨ReadsAs.decodeLossy_eq, ?_⟩
  rintro rfl
  obtain ⟨text, htext⟩ := (exists_readsAs bytes).1
  rwa [htext.decodeLossy_eq]

/-- An encoding is read as the text that it encodes, whatever follows. -/
theorem decodeLossy_encodeUtf8_append (text : List Char) (rest : Bytes) :
    decodeLossy (encodeUtf8 (String.ofList text) ++ rest) = text ++ decodeLossy rest := by
  induction text with
  | nil => rfl
  | cons c later ih =>
      rw [encodeUtf8_cons, List.append_assoc, decodeLossy_append_character, ih, List.cons_append]

end RemoteDebugger.Text
