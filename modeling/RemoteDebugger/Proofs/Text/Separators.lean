import Mathlib.Data.List.Basic

/-!
# Texts between separators

The parts of a text between all occurrences of a separator do not hold it, and there is one more of
them than there are separators.  Parts with a separator behind each are found again in their text, with
an empty part behind the last separator.
-/

namespace RemoteDebugger.Text

theorem splitOn_cons_self (separator : Char) (text : List Char) :
    (separator :: text).splitOn separator = [] :: text.splitOn separator := by
  rw [List.splitOn_cons_eq_if_modifyHead, if_pos (beq_self_eq_true separator)]

theorem splitOn_cons_of_ne {c separator : Char} {text first : List Char}
    {later : List (List Char)} (h : c ≠ separator)
    (hsplit : text.splitOn separator = first :: later) :
    (c :: text).splitOn separator = (c :: first) :: later := by
  rw [List.splitOn_cons_eq_if_modifyHead, if_neg (by simpa using h), hsplit, List.modifyHead_cons]

theorem not_mem_of_mem_splitOn {separator : Char} {text part : List Char}
    (h : part ∈ text.splitOn separator) : separator ∉ part := by
  induction text generalizing part with
  | nil =>
      rw [List.splitOn_nil, List.mem_singleton] at h
      rw [h]
      exact List.not_mem_nil
  | cons c text ih =>
      obtain ⟨first, later, hsplit⟩ :=
        List.exists_cons_of_ne_nil (List.splitOn_ne_nil separator text)
      by_cases hc : c = separator
      · rw [hc, splitOn_cons_self, List.mem_cons] at h
        rcases h with rfl | hpart
        · exact List.not_mem_nil
        · exact ih hpart
      · rw [splitOn_cons_of_ne hc hsplit, List.mem_cons] at h
        rw [hsplit] at ih
        rcases h with rfl | hpart
        · rw [List.mem_cons, not_or]
          exact ⟨fun heq => hc heq.symm, ih List.mem_cons_self⟩
        · exact ih (List.mem_cons_of_mem first hpart)

theorem length_splitOn (separator : Char) (text : List Char) :
    (text.splitOn separator).length = text.count separator + 1 := by
  rw [List.splitOn_eq_splitOnP]
  induction text with
  | nil => rfl
  | cons c rest ih =>
      rw [List.splitOnP_cons_eq_if_modifyHead, List.count_cons]
      by_cases h : c == separator
      · simp [h, ih]
      · simp [h, ih]

theorem splitOn_flatMap_concat {separator : Char} {lines : List (List Char)}
    (h : ∀ line ∈ lines, separator ∉ line) :
    (lines.flatMap (· ++ [separator])).splitOn separator = lines ++ [[]] := by
  induction lines with
  | nil => rfl
  | cons line lines ih =>
      have hline : ∀ c ∈ line, (c == separator) = false := by
        intro c hc
        have hne : c ≠ separator := fun heq => h line (by simp) (heq ▸ hc)
        simpa using hne
      have hlines := ih fun other hother => h other (by simp [hother])
      rw [List.splitOn_eq_splitOnP] at hlines ⊢
      rw [List.flatMap_cons, List.append_assoc, List.singleton_append,
        List.splitOnP_append_cons _ _ (by simp), List.splitOnP_eq_singleton hline, hlines]
      rfl

/-- A text between the parts of a list begins with all parts before any one of them. -/
theorem intercalate_append_cons (separator : Char) (before : List (List Char)) (part : List Char)
    (after : List (List Char)) :
    [separator].intercalate (before ++ part :: after) =
      before.flatMap (· ++ [separator]) ++ [separator].intercalate (part :: after) := by
  induction before with
  | nil => rfl
  | cons first before ih =>
      obtain ⟨next, later, hnext⟩ := List.exists_cons_of_ne_nil
        (show before ++ part :: after ≠ [] by simp)
      rw [List.cons_append, hnext, List.intercalate_cons_cons, ← hnext, ih, List.flatMap_cons]
      simp only [List.append_assoc]

end RemoteDebugger.Text
