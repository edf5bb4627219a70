import RemoteDebugger.Listing.Parser
import RemoteDebugger.Proofs.Listing.Entries

/-!
# Reading a listing line by line

A line that is read without an error does one of three things, which `Reading.Step` lists: it closes
the block, it opens one, or it adds an entry to the document.  Which of them it does, and whether it
has a defect, depends on the open block alone.  Lines therefore add the same entries to every
document, and what holds of every document that is built from entries holds of every listing that is
read.
-/

namespace RemoteDebugger.Listing

open RemoteDebugger.Text

namespace Reading

/-- What a line does that is read without an error. -/
inductive Step (reading : Reading) (line : List Char) : Reading → Prop
  | blank (hblank : trimEnd line = []) :
      Step reading line ⟨reading.doc, none, reading.lines + 1⟩
  | header {block : Block} (hline : trimEnd line ≠ []) (hclosed : reading.block = none)
      (hheader : Block.ofHeader (trimEnd line) = .ok block) :
      Step reading line ⟨reading.doc, some block, reading.lines + 1⟩
  | entry {block : Block} {entry : Entry} (hline : trimEnd line ≠ [])
      (hopen : reading.block = some block) (hentry : block.entry (trimEnd line) = .ok entry) :
      Step reading line ⟨reading.doc.add entry, some block, reading.lines + 1⟩

theorem Step.line_eq {reading next : Reading} {line : List Char} (h : reading.Step line next) :
    reading.line line = .ok next := by
  cases h with
  | blank hblank => simp [Reading.line, hblank]
  | header hline hclosed hheader => simp [Reading.line, hline, hclosed, hheader]
  | entry hline hopen hentry => simp [Reading.line, hline, hopen, hentry]

theorem step_of_line {reading next : Reading} {line : List Char}
    (h : reading.line line = .ok next) : reading.Step line next := by
  obtain ⟨doc, open?, count⟩ := reading
  by_cases hblank : trimEnd line = []
  · rw [(Step.blank hblank).line_eq] at h
    cases h
    exact .blank hblank
  · rcases open? with _ | block
    · cases hheader : Block.ofHeader (trimEnd line) with
      | error defect => simp [Reading.line, hblank, hheader] at h
      | ok block =>
          rw [(Step.header hblank rfl hheader).line_eq] at h
          cases h
          exact .header hblank rfl hheader
    · cases hentry : block.entry (trimEnd line) with
      | error defect => simp [Reading.line, hblank, hentry] at h
      | ok entry =>
          rw [(Step.entry hblank rfl hentry).line_eq] at h
          cases h
          exact .entry hblank rfl hentry

theorem line_nil (reading : Reading) :
    reading.line [] = .ok ⟨reading.doc, none, reading.lines + 1⟩ :=
  (Step.blank rfl).line_eq

/-! ## What lines do to any document -/

/-- A line adds the same entries to every document, or has the same defect in all of them: only the
open block counts. -/
theorem line_cases (block : Option Block) (line : List Char) :
    (∃ (entries : List Entry) (next : Option Block), ∀ doc count,
        Reading.line ⟨doc, block, count⟩ line =
          .ok ⟨entries.foldl Document.add doc, next, count + 1⟩) ∨
      ∃ defect, ∀ doc count,
        Reading.line ⟨doc, block, count⟩ line = .error ⟨count + 1, defect⟩ := by
  by_cases hblank : trimEnd line = []
  · left
    exact ⟨[], none, fun _ _ => (Step.blank hblank).line_eq⟩
  · rcases block with _ | block
    · rcases hheader : Block.ofHeader (trimEnd line) with defect | opened
      · right
        refine ⟨defect, ?_⟩
        simp [Reading.line, hblank, hheader]
      · left
        exact ⟨[], some opened, fun _ _ => (Step.header hblank rfl hheader).line_eq⟩
    · rcases hentry : block.entry (trimEnd line) with defect | entry
      · right
        refine ⟨defect, ?_⟩
        simp [Reading.line, hblank, hentry]
      · left
        exact ⟨[entry], some block, fun _ _ => (Step.entry hblank rfl hentry).line_eq⟩

/-- What lines do does not depend on what was read before them, but for the open block: they add the
same entries to every document, or the same one of them is the first with a defect. -/
theorem foldlM_line_cases (block : Option Block) (lines : List (List Char)) :
    (∃ (entries : List Entry) (next : Option Block), ∀ doc count,
        lines.foldlM Reading.line ⟨doc, block, count⟩ =
          .ok ⟨entries.foldl Document.add doc, next, count + lines.length⟩) ∨
      ∃ offset defect, ∀ doc count,
        lines.foldlM Reading.line ⟨doc, block, count⟩ = .error ⟨count + offset, defect⟩ := by
  induction lines generalizing block with
  | nil =>
      left
      exact ⟨[], block, fun _ _ => rfl⟩
  | cons line later ih =>
      rcases line_cases block line with ⟨entries, next, hline⟩ | ⟨defect, hline⟩
      · rcases ih next with ⟨more, last, hlater⟩ | ⟨offset, defect, hlater⟩
        · left
          refine ⟨entries ++ more, last, ?_⟩
          intro doc count
          rw [List.foldlM_cons, hline, List.foldl_append, List.length_cons, Nat.add_comm later.length,
            ← Nat.add_assoc]
          exact hlater _ _
        · right
          refine ⟨1 + offset, defect, ?_⟩
          intro doc count
          rw [List.foldlM_cons, hline, ← Nat.add_assoc]
          exact hlater _ _
      · right
        refine ⟨1, defect, ?_⟩
        intro doc count
        rw [List.foldlM_cons, hline]
        rfl

end Reading

namespace Document

/-- A listing that is read stands for entries, and one that is not has a first defect, whatever was
read before it and is closed. -/
theorem parse_cases (text : String) :
    (∃ (entries : List Entry) (next : Option Block), parse text = .ok (entries.foldl add {}) ∧
        ∀ doc count, (text.toList.splitOn '\n').foldlM Reading.line ⟨doc, none, count⟩ =
          .ok ⟨entries.foldl add doc, next, count + (text.toList.splitOn '\n').length⟩) ∨
      ∃ offset defect, parse text = .error ⟨offset, defect⟩ ∧
        ∀ doc count, (text.toList.splitOn '\n').foldlM Reading.line ⟨doc, none, count⟩ =
          .error ⟨count + offset, defect⟩ := by
  rcases Reading.foldlM_line_cases none (text.toList.splitOn '\n') with
    ⟨entries, next, hread⟩ | ⟨offset, defect, hread⟩
  · left
    refine ⟨entries, next, ?_, hread⟩
    rw [parse, hread]
    rfl
  · right
    refine ⟨offset, defect, ?_, hread⟩
    rw [parse, hread, Nat.zero_add]
    rfl

/-- A listing that is read is a document built from entries. -/
theorem exists_entries_of_parse {text : String} {doc : Document} (h : parse text = .ok doc) :
    ∃ entries : List Entry, doc = entries.foldl add {} := by
  rcases parse_cases text with ⟨entries, next, hparse, -⟩ | ⟨offset, defect, hparse, -⟩
  · rw [hparse] at h
    cases h
    exact ⟨entries, rfl⟩
  · rw [hparse] at h
    cases h

end Document

end RemoteDebugger.Listing
