import Mathlib.Data.List.DropRight
import Mathlib.Data.List.Induction
import RemoteDebugger.Text.Whitespace

/-!
# Trimming and words

What trimming leaves of a text that is put together from parts: a character that is not blank keeps
everything on its other side.  The words of two texts with a blank between them are those of the one
and those of the other.
-/

namespace RemoteDebugger.Text

/-! ## Trimming -/

/-- Trimming at the end stops at a character that is not blank. -/
theorem trimEnd_append_cons {c : Char} (hc : isBlank c = false) (before after : List Char) :
    trimEnd (before ++ c :: after) = before ++ c :: trimEnd after := by
  simp only [trimEnd, List.reverse_append, List.reverse_cons, List.append_assoc,
    List.dropWhile_append]
  by_cases hblank : after.reverse.dropWhile isBlank = []
  · simp [hblank, hc]
  · simp [hblank]

theorem trimEnd_eq_self {text : List Char}
    (h : ∀ c, text.getLast? = some c → isBlank c = false) : trimEnd text = text := by
  rcases List.eq_nil_or_concat text with rfl | ⟨front, c, rfl⟩
  · rfl
  · have hc : isBlank c = false := h c (by simp)
    rw [List.concat_eq_append, trimEnd_concat hc]

theorem trimEnd_trimEnd (text : List Char) : trimEnd (trimEnd text) = trimEnd text := by
  simp only [trimEnd, List.reverse_reverse, List.dropWhile_idempotent]

/-- Blanks at the end do not count. -/
theorem trimEnd_append_blanks (content : List Char) {blanks : List Char}
    (h : ∀ c ∈ blanks, isBlank c = true) : trimEnd (content ++ blanks) = trimEnd content := by
  induction blanks using List.reverseRecOn with
  | nil => rw [List.append_nil]
  | append_singleton front c ih =>
      obtain ⟨hfront, hc⟩ := List.forall_mem_append.mp h
      rw [← List.append_assoc, trimEnd_concat_blank (hc c List.mem_cons_self), ih hfront]

theorem trimStart_eq_self {text : List Char}
    (h : ∀ c, text.head? = some c → isBlank c = false) : trimStart text = text := by
  cases text with
  | nil => rfl
  | cons c rest =>
      have hc : isBlank c = false := h c rfl
      simp [trimStart, hc]

theorem trimEnd_of_not_blank {text : List Char} (h : ∀ c ∈ text, isBlank c = false) :
    trimEnd text = text := by
  apply trimEnd_eq_self
  intro c hc
  exact h c (List.mem_of_getLast? hc)

theorem trim_of_not_blank {text : List Char} (h : ∀ c ∈ text, isBlank c = false) :
    trim text = text := by
  have hstart : trimStart text = text := by
    apply trimStart_eq_self
    intro c hc
    exact h c (List.mem_of_head? hc)
  rw [trim, hstart, trimEnd_of_not_blank h]

/-- A blank before a trimmed text is all that trimming takes away, at whichever end it begins. -/
theorem trim_blank_cons {blank : Char} {text : List Char} (hblank : isBlank blank = true)
    (hstart : ∀ c, text.head? = some c → isBlank c = false)
    (hend : ∀ c, text.getLast? = some c → isBlank c = false) :
    trimStart (trimEnd (blank :: text)) = text ∧ trim (trimEnd (blank :: text)) = text := by
  have hleft : trimStart (trimEnd (blank :: text)) = text := by
    cases htext : text with
    | nil => simp [trimEnd, hblank]
    | cons c rest =>
        rw [← htext]
        have hlast : ∀ c, (blank :: text).getLast? = some c → isBlank c = false := by
          intro c hc
          apply hend c
          rwa [List.getLast?_cons_of_ne_nil (by simp [htext])] at hc
        rw [trimEnd_eq_self hlast, trimStart, List.dropWhile_cons_of_pos hblank]
        exact trimStart_eq_self hstart
  exact ⟨hleft, by rw [trim, hleft, trimEnd_eq_self hend]⟩

/-! ## Words -/

theorem words_append_blank {blank : Char} (hblank : isBlank blank = true)
    (before after : List Char) :
    words (before ++ blank :: after) = words before ++ words after := by
  rw [words, List.splitOnP_append_cons before after hblank, List.filter_append]
  rfl

theorem words_blank_cons {blank : Char} (hblank : isBlank blank = true) (text : List Char) :
    words (blank :: text) = words text :=
  words_append_blank hblank [] text

/-- A text without blanks is one word, or none if it is empty. -/
theorem words_of_not_blank {text : List Char} (h : ∀ c ∈ text, isBlank c = false) :
    words text = if text = [] then [] else [text] := by
  rw [words, List.splitOnP_eq_singleton h]
  cases text <;> simp

/-- Words with a blank between them are the words of their text. -/
theorem words_intercalate {blank : Char} (hblank : isBlank blank = true) {parts : List (List Char)}
    (h : ∀ part ∈ parts, part ≠ [] ∧ ∀ c ∈ part, isBlank c = false) :
    words ([blank].intercalate parts) = parts := by
  induction parts with
  | nil => rfl
  | cons part later ih =>
      obtain ⟨⟨hne, hpart⟩, hlater⟩ := List.forall_mem_cons.mp h
      have hone : words part = [part] := by rw [words_of_not_blank hpart, if_neg hne]
      rcases later with _ | ⟨next, later⟩
      · rw [List.intercalate_singleton, hone]
      · rw [List.intercalate_cons_cons, List.append_assoc, List.singleton_append,
          words_append_blank hblank, hone, ih hlater]
        rfl

theorem words_trimStart (text : List Char) : words (trimStart text) = words text := by
  induction text with
  | nil => rfl
  | cons c rest ih =>
      cases hc : isBlank c with
      | true =>
          rw [trimStart, List.dropWhile_cons_of_pos hc, words_blank_cons hc]
          exact ih
      | false => simp [trimStart, hc]

theorem words_trimEnd (text : List Char) : words (trimEnd text) = words text := by
  induction text using List.reverseRecOn with
  | nil => rfl
  | append_singleton front c ih =>
      cases hc : isBlank c with
      | true =>
          have hwords := words_append_blank hc front []
          have hnone : words [] = [] := rfl
          rw [hnone, List.append_nil] at hwords
          rw [trimEnd_concat_blank hc, ih, hwords]
      | false => rw [trimEnd_concat hc]

/-- Trimming takes no word away. -/
theorem words_trim (text : List Char) : words (trim text) = words text := by
  rw [trim, words_trimEnd, words_trimStart]

end RemoteDebugger.Text
