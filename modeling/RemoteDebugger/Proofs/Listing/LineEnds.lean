import Mathlib.Data.List.Forall2
import RemoteDebugger.Proofs.Listing.Reading
import RemoteDebugger.Proofs.Results
import RemoteDebugger.Proofs.Text.Separators
import RemoteDebugger.Proofs.Text.Trimming

/-!
# Lines and their ends

A listing is read line by line, and blanks at the end of a line do not count, a carriage return among
them.  So a listing is what its lines are read as, `parse_eq_document`; the first line with a defect
settles the error, whatever follows it; and texts whose lines differ in blanks at their ends are read
alike.
-/

namespace RemoteDebugger.Listing

open RemoteDebugger.Text

/-! ## The lines of a text -/

/-- A line without a carriage return at its end. -/
def dropReturn (line : List Char) : List Char :=
  if line.getLast? = some '\r' then line.dropLast else line

/-- The lines that the parts of a text between its line feeds stand for.  A line feed, perhaps behind
a carriage return, ends every part but the last one, which is a line if it is not empty. -/
def endedLines : List (List Char) → List (List Char)
  | [] => []
  | [last] => if last = [] then [] else [last]
  | part :: next :: later => dropReturn part :: endedLines (next :: later)

/-- The lines of a text, without their ends. -/
def textLines (text : String) : List (List Char) :=
  endedLines (text.toList.splitOn '\n')

theorem endedLines_append_cons (before : List (List Char)) (part : List Char)
    (after : List (List Char)) :
    endedLines (before ++ part :: after) = before.map dropReturn ++ endedLines (part :: after) := by
  induction before with
  | nil => rfl
  | cons first before ih =>
      obtain ⟨next, later, hnext⟩ := List.exists_cons_of_ne_nil
        (show before ++ part :: after ≠ [] by simp)
      rw [List.cons_append, hnext, endedLines, ← hnext, ih, List.map_cons, List.cons_append]

theorem length_endedLines_le (parts : List (List Char)) :
    (endedLines parts).length ≤ parts.length := by
  rcases List.eq_nil_or_concat parts with rfl | ⟨before, last, rfl⟩
  · exact Nat.le_refl 0
  · rw [List.concat_eq_append, endedLines_append_cons, endedLines]
    split
    · simp
    · simp

/-- A text begins with a text of any number of its lines. -/
theorem exists_text_of_take {text : String} {count : Nat} (h : count < (textLines text).length) :
    ∃ front : String, front.toList <+: text.toList ∧
      textLines front = (textLines text).take count := by
  have hcount : count < (text.toList.splitOn '\n').length :=
    Nat.lt_of_lt_of_le h (length_endedLines_le _)
  obtain ⟨before, part, after, hparts, hlength⟩ : ∃ before part after,
      text.toList.splitOn '\n' = before ++ part :: after ∧ before.length = count := by
    generalize text.toList.splitOn '\n' = parts at hcount ⊢
    refine ⟨parts.take count, parts[count], parts.drop (count + 1), ?_,
      List.length_take_of_le (Nat.le_of_lt hcount)⟩
    rw [List.getElem_cons_drop hcount, List.take_append_drop]
  have hends : ∀ line ∈ before, '\n' ∉ line := by
    intro line hline
    have hmem : line ∈ text.toList.splitOn '\n' := by
      rw [hparts]
      exact List.mem_append_left _ hline
    exact not_mem_of_mem_splitOn hmem
  refine ⟨String.ofList (before.flatMap (· ++ ['\n'])), ?_, ?_⟩
  · have htext : ['\n'].intercalate (text.toList.splitOn '\n') = text.toList :=
      List.intercalate_splitOn '\n'
    rw [hparts, intercalate_append_cons] at htext
    rw [String.toList_ofList, ← htext]
    exact List.prefix_append _ _
  · have hlast : endedLines [[]] = [] := rfl
    rw [textLines, textLines, String.toList_ofList, splitOn_flatMap_concat hends, hparts,
      endedLines_append_cons, endedLines_append_cons, hlast, List.append_nil,
      List.take_left' (by simpa using hlength)]

theorem trimEnd_dropReturn (line : List Char) : trimEnd (dropReturn line) = trimEnd line := by
  rw [dropReturn]
  split
  · next hreturn =>
      obtain ⟨front, hline⟩ := List.getLast?_eq_some_iff.mp hreturn
      rw [hline, List.dropLast_concat, trimEnd_concat_blank rfl]
  · rfl

/-! ## Reading lines -/

namespace Reading

theorem line_trimEnd (reading : Reading) (line : List Char) :
    reading.line (trimEnd line) = reading.line line := by
  simp only [Reading.line, trimEnd_trimEnd]

theorem line_eq_of_trimEnd_eq {line other : List Char} (h : trimEnd line = trimEnd other)
    (reading : Reading) : reading.line line = reading.line other := by
  rw [← line_trimEnd, h, line_trimEnd]

/-- The document that lines are read as, behind those that are read already. -/
def document (reading : Reading) (lines : List (List Char)) : Except FormatError Document :=
  (·.doc) <$> lines.foldlM Reading.line reading

/-- The ends of lines do not count, and neither does an empty part behind the last of them. -/
theorem document_endedLines (parts : List (List Char)) (reading : Reading) :
    reading.document (endedLines parts) = reading.document parts := by
  rcases List.eq_nil_or_concat parts with rfl | ⟨before, last, rfl⟩
  · rfl
  · have hbefore : ∀ reading : Reading,
        (before.map dropReturn).foldlM Reading.line reading =
          before.foldlM Reading.line reading := by
      intro reading
      rw [List.foldlM_map]
      simp only [line_eq_of_trimEnd_eq (trimEnd_dropReturn _)]
    rw [document, document, List.concat_eq_append, endedLines_append_cons, List.foldlM_append,
      List.foldlM_append, hbefore, map_bind, map_bind]
    apply bind_congr
    intro next
    rw [endedLines]
    split
    · next hlast =>
        rw [hlast, List.foldlM_cons, line_nil]
        rfl
    · rfl

theorem lines_of_foldlM {lines : List (List Char)} {reading next : Reading}
    (h : lines.foldlM Reading.line reading = .ok next) :
    next.lines = reading.lines + lines.length := by
  obtain ⟨doc, block, count⟩ := reading
  rcases foldlM_line_cases block lines with ⟨entries, last, hread⟩ | ⟨offset, defect, hread⟩
  · rw [hread] at h
    rw [← Except.ok.inj h]
  · rw [hread] at h
    cases h

theorem line_of_error {line : List Char} {reading : Reading} {error : FormatError}
    (h : reading.line line = .error error) : error.line = reading.lines + 1 := by
  obtain ⟨doc, block, count⟩ := reading
  rcases line_cases block line with ⟨entries, next, hread⟩ | ⟨defect, hread⟩
  · rw [hread] at h
    cases h
  · rw [hread] at h
    rw [← Except.error.inj h]

end Reading

/-- A listing is what its lines are read as. -/
theorem parse_eq_document (text : String) :
    Document.parse text = Reading.document {} (textLines text) :=
  (Reading.document_endedLines _ {}).symm

/-- The first line with a defect settles the error. -/
theorem document_eq_error_iff {lines : List (List Char)} {error : FormatError} :
    Reading.document {} lines = .error error ↔
      ∃ before line after reading, lines = before ++ line :: after ∧
        before.length + 1 = error.line ∧ before.foldlM Reading.line {} = .ok reading ∧
          reading.line line = .error error := by
  rw [Reading.document, map_eq_error_iff, foldlM_eq_error_iff]
  apply exists_congr
  intro before
  apply exists_congr
  intro line
  apply exists_congr
  intro after
  apply exists_congr
  intro reading
  constructor
  · intro h
    obtain ⟨hlines, hbefore, hline⟩ := h
    have hcount := Reading.lines_of_foldlM hbefore
    have hnumber := Reading.line_of_error hline
    refine ⟨hlines, ?_, hbefore, hline⟩
    rw [hnumber, hcount, Nat.zero_add]
  · intro h
    obtain ⟨hlines, -, hbefore, hline⟩ := h
    exact ⟨hlines, hbefore, hline⟩

/-! ## Texts that differ at the ends of their lines -/

/-- Two lines have the same content, and blanks behind it. -/
def SameContent (line other : List Char) : Prop :=
  ∃ content blanks blanks', line = content ++ blanks ∧ other = content ++ blanks' ∧
    ∀ c ∈ blanks ++ blanks', isBlank c = true

/-- Two texts have lines of the same content.  So it is when blanks are inserted before line feeds and
at the end of a text. -/
def SameButLineEnds (text other : String) : Prop :=
  List.Forall₂ SameContent (text.toList.splitOn '\n') (other.toList.splitOn '\n')

/-- A text with a carriage return before every line feed. -/
def withReturns (text : String) : String :=
  String.ofList (text.toList.flatMap fun c => if c = '\n' then ['\r', '\n'] else [c])

theorem SameContent.trimEnd_eq {line other : List Char} (h : SameContent line other) :
    trimEnd line = trimEnd other := by
  obtain ⟨content, blanks, blanks', rfl, rfl, hblank⟩ := h
  obtain ⟨hblanks, hblanks'⟩ := List.forall_mem_append.mp hblank
  rw [trimEnd_append_blanks content hblanks, trimEnd_append_blanks content hblanks']

theorem SameContent.cons {line other : List Char} (h : SameContent line other) (c : Char) :
    SameContent (c :: line) (c :: other) := by
  obtain ⟨content, blanks, blanks', rfl, rfl, hblank⟩ := h
  exact ⟨c :: content, blanks, blanks', rfl, rfl, hblank⟩

theorem sameButLineEnds_withReturns (text : String) : SameButLineEnds text (withReturns text) := by
  rw [SameButLineEnds, withReturns, String.toList_ofList]
  induction text.toList with
  | nil => exact .cons ⟨[], [], [], rfl, rfl, by simp⟩ .nil
  | cons c rest ih =>
      rw [List.flatMap_cons]
      obtain ⟨first, later, hrest⟩ := List.exists_cons_of_ne_nil (List.splitOn_ne_nil '\n' rest)
      by_cases hc : c = '\n'
      · -- the line feed ends an empty part here, and one with a carriage return there
        have hreturn := splitOn_cons_of_ne (show '\r' ≠ '\n' by decide)
          (splitOn_cons_self '\n' (rest.flatMap fun c => if c = '\n' then ['\r', '\n'] else [c]))
        rw [if_pos hc, hc, splitOn_cons_self, List.cons_append, List.cons_append, List.nil_append,
          hreturn]
        exact .cons ⟨[], [], ['\r'], rfl, rfl, List.forall_mem_singleton.mpr rfl⟩ ih
      · rw [if_neg hc, List.singleton_append, splitOn_cons_of_ne hc hrest]
        rw [hrest] at ih
        obtain ⟨first', later', hfirst, hlater, hreturns⟩ := List.forall₂_cons_left_iff.mp ih
        rw [splitOn_cons_of_ne hc hreturns]
        exact .cons (hfirst.cons c) hlater

theorem parse_of_sameButLineEnds {text other : String} (h : SameButLineEnds text other) :
    Document.parse other = Document.parse text := by
  have hfold : ∀ (parts others : List (List Char)) (reading : Reading),
      List.Forall₂ SameContent parts others →
        others.foldlM Reading.line reading = parts.foldlM Reading.line reading := by
    intro parts others reading hparts
    induction hparts generalizing reading with
    | nil => rfl
    | cons hfirst hlater ih =>
        rw [List.foldlM_cons, List.foldlM_cons,
          Reading.line_eq_of_trimEnd_eq hfirst.trimEnd_eq reading]
        apply bind_congr
        intro next
        exact ih next
  rw [Document.parse, Document.parse, hfold _ _ {} h]

/-! ## All texts -/

/-- The error of a listing depends on the lines up to its own and on nothing else: it is in one of
the lines, those before it are read without an error, and every text that begins with the same lines
has the same error.  Blanks at the ends of lines, and carriage returns there, do not count. -/
theorem parse_errors_local (text : String) :
    (∀ error, Document.parse text = .error error →
      1 ≤ error.line ∧ error.line ≤ (textLines text).length ∧
      (∃ (front : String) (doc : Document), front.toList <+: text.toList ∧
        textLines front = (textLines text).take (error.line - 1) ∧
          Document.parse front = .ok doc) ∧
      ∀ other, (textLines other).take error.line = (textLines text).take error.line →
        Document.parse other = .error error) ∧
    (∀ other, SameButLineEnds text other → Document.parse other = Document.parse text) ∧
    Document.parse (withReturns text) = Document.parse text := by
  refine ⟨?_, fun other => parse_of_sameButLineEnds,
    parse_of_sameButLineEnds (sameButLineEnds_withReturns text)⟩
  intro error herror
  rw [parse_eq_document] at herror
  obtain ⟨before, line, after, reading, hlines, hnumber, hbefore, hline⟩ :=
    document_eq_error_iff.mp herror
  have hfront : (textLines text).take (error.line - 1) = before := by
    rw [← hnumber, Nat.add_sub_cancel, hlines, List.take_left]
  have hupto : (textLines text).take error.line = before ++ [line] := by
    rw [← hnumber, hlines, List.take_length_add_append]
    rfl
  have hlength : error.line ≤ (textLines text).length := by
    rw [← hnumber, hlines, List.length_append, List.length_cons]
    omega
  refine ⟨by omega, hlength, ?_, ?_⟩
  · have hless : error.line - 1 < (textLines text).length := by omega
    obtain ⟨front, hprefix, hsame⟩ := exists_text_of_take hless
    refine ⟨front, reading.doc, hprefix, hsame, ?_⟩
    rw [parse_eq_document, hsame, hfront]
    exact map_eq_ok_iff.mpr ⟨reading, hbefore, rfl⟩
  · intro other hother
    have hsplit : textLines other = before ++ line :: (textLines other).drop error.line := by
      rw [← List.singleton_append, ← List.append_assoc, ← hupto, ← hother, List.take_append_drop]
    rw [parse_eq_document]
    apply document_eq_error_iff.mpr
    exact ⟨before, line, _, reading, hsplit, hnumber, hbefore, hline⟩

/-- A listing whose third line has no colon. -/
def colonless : String := "Source: a.s\n x\nnop\n y\n"

/-- The defect stays where it is if line ends are written in another way, if lines follow that are no
listing, and if there are blanks behind it. -/
theorem errors_local_of_colonless :
    Document.parse colonless = .error ⟨3, .missingSeparator ':'⟩ ∧
    (textLines "Source: a.s\r\n x\r\nnop\r\n\nnone").take 3 = (textLines colonless).take 3 ∧
    Document.parse "Source: a.s\r\n x\r\nnop\r\n\nnone" = .error ⟨3, .missingSeparator ':'⟩ ∧
    SameButLineEnds colonless "Source: a.s\n x\nnop \t\n y\n" ∧
    Document.parse "Source: a.s\n x\nnop \t\n y\n" = .error ⟨3, .missingSeparator ':'⟩ := by
  have herror : Document.parse colonless = .error ⟨3, .missingSeparator ':'⟩ := by
    have hread : (fun _ => ()) <$> Document.parse colonless =
        .error ⟨3, .missingSeparator ':'⟩ := by
      decide +kernel
    exact map_eq_error_iff.mp hread
  have hlines : (textLines "Source: a.s\r\n x\r\nnop\r\n\nnone").take 3 =
      (textLines colonless).take 3 := by
    decide +kernel
  have hends : SameButLineEnds colonless "Source: a.s\n x\nnop \t\n y\n" := by
    have hparts : colonless.toList.splitOn '\n' =
        ["Source: a.s".toList, " x".toList, "nop".toList, " y".toList, []] := by
      decide
    have hothers : "Source: a.s\n x\nnop \t\n y\n".toList.splitOn '\n' =
        ["Source: a.s".toList, " x".toList, "nop \t".toList, " y".toList, []] := by
      decide
    have hsame : ∀ line, SameContent line line := by
      intro line
      exact ⟨line, [], [], by simp, by simp, by simp⟩
    rw [SameButLineEnds, hparts, hothers]
    refine .cons (hsame _) (.cons (hsame _) (.cons ?_ (.cons (hsame _) (.cons (hsame _) .nil))))
    exact ⟨"nop".toList, [], [' ', '\t'], by decide, by decide, by simp [isBlank]⟩
  obtain ⟨hlocal, hsame, -⟩ := parse_errors_local colonless
  obtain ⟨-, -, -, hother⟩ := hlocal _ herror
  exact ⟨herror, hlines, hother _ hlines, hends, (hsame _ hends).trans herror⟩

end RemoteDebugger.Listing
