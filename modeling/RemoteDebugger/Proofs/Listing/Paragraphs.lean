import RemoteDebugger.Proofs.Listing.Lines
import RemoteDebugger.Proofs.Listing.Reading

/-!
# The blocks of a listing

The lines of a listing fall into paragraphs, the runs of lines between blank ones.  In a listing that
is read, the first line of each paragraph is a header, and every other line is an item of the block
that this header opens.  The document is built from what these items say, in the order of the text.
-/

namespace RemoteDebugger.Listing

open RemoteDebugger.Text

/-! ## Paragraphs -/

/-- The lines of a text, without the blanks at their ends. -/
def trimmedLines (text : String) : List (List Char) :=
  (text.toList.splitOn '\n').map trimEnd

/-- The runs of lines between blank lines. -/
def paragraphs (lines : List (List Char)) : List (List (List Char)) :=
  (lines.splitOnP (·.isEmpty)).filter (!·.isEmpty)

/-- An open block and its lines, without the header. -/
structure Body where
  block : Block
  lines : List (List Char)
  deriving DecidableEq, Repr

def Body.items (body : Body) : List Item :=
  body.lines.map (Item.mk body.block)

/-- A paragraph whose first line is a header that opens a block for the other lines. -/
def Body.IsOf (paragraph : List (List Char)) (body : Body) : Prop :=
  ∃ header, paragraph = header :: body.lines ∧ Block.ofHeader header = .ok body.block

theorem Body.IsOf.unique {paragraph : List (List Char)} {body other : Body}
    (h : body.IsOf paragraph) (hother : other.IsOf paragraph) : body = other := by
  obtain ⟨block, lines⟩ := body
  obtain ⟨block', lines'⟩ := other
  obtain ⟨header, rfl, hblock⟩ := h
  obtain ⟨header', hsame, hblock'⟩ := hother
  obtain ⟨rfl, rfl⟩ := List.cons.inj hsame
  obtain rfl := Except.ok.inj (hblock.symm.trans hblock')
  rfl

theorem splitOnP_nil_cons (lines : List (List Char)) :
    ([] :: lines).splitOnP (·.isEmpty) = [] :: lines.splitOnP (·.isEmpty) := by
  rw [List.splitOnP_cons_eq_if_modifyHead, if_pos List.isEmpty_nil]

theorem splitOnP_cons_of_ne_nil {line : List Char} (h : line ≠ []) {lines first : List (List Char)}
    {others : List (List (List Char))} (hsplit : lines.splitOnP (·.isEmpty) = first :: others) :
    (line :: lines).splitOnP (·.isEmpty) = (line :: first) :: others := by
  rw [List.splitOnP_cons_eq_if_modifyHead, if_neg (by simpa using h), hsplit,
    List.modifyHead_cons]

theorem paragraphs_nil_cons (lines : List (List Char)) :
    paragraphs ([] :: lines) = paragraphs lines := by
  rw [paragraphs, splitOnP_nil_cons]
  rfl

theorem paragraphs_cons_of_ne_nil {line : List Char} (h : line ≠ [])
    {lines first : List (List Char)} {others : List (List (List Char))}
    (hsplit : lines.splitOnP (·.isEmpty) = first :: others) :
    paragraphs (line :: lines) = (line :: first) :: others.filter (!·.isEmpty) := by
  rw [paragraphs, splitOnP_cons_of_ne_nil h hsplit]
  rfl

/-- Every line that is not blank is in a paragraph. -/
theorem flatten_paragraphs (lines : List (List Char)) :
    (paragraphs lines).flatten = lines.filter (!·.isEmpty) := by
  have hflatten : ∀ parts : List (List (List Char)),
      (parts.filter (!·.isEmpty)).flatten = parts.flatten := by
    intro parts
    induction parts with
    | nil => rfl
    | cons part parts ih => cases part <;> simp [ih]
  rw [paragraphs, hflatten]
  induction lines with
  | nil => rfl
  | cons line later ih =>
      obtain ⟨first, others, hsplit⟩ :=
        List.exists_cons_of_ne_nil (List.splitOnP_ne_nil (·.isEmpty) later)
      by_cases hline : line = []
      · rw [hline, splitOnP_nil_cons]
        simpa using ih
      · rw [hsplit] at ih
        rw [splitOnP_cons_of_ne_nil hline hsplit]
        simpa [hline] using ih

/-! ## Reading -/

/-- What lines say, behind a closed block or inside an open one, whose own lines come first. -/
theorem exists_bodies_of_foldlM (lines : List (List Char)) :
    (∀ doc count last, lines.foldlM Reading.line ⟨doc, none, count⟩ = .ok last →
      ∃ bodies entries, List.Forall₂ Body.IsOf (paragraphs (lines.map trimEnd)) bodies ∧
        List.Forall₂ Item.Says (bodies.flatMap Body.items) entries ∧
        last.doc = entries.foldl Document.add doc) ∧
    ∀ block doc count last, lines.foldlM Reading.line ⟨doc, some block, count⟩ = .ok last →
      ∀ rest others, (lines.map trimEnd).splitOnP (·.isEmpty) = rest :: others →
        ∃ bodies entries, List.Forall₂ Body.IsOf (others.filter (!·.isEmpty)) bodies ∧
          List.Forall₂ Item.Says (Body.items ⟨block, rest⟩ ++ bodies.flatMap Body.items) entries ∧
          last.doc = entries.foldl Document.add doc := by
  induction lines with
  | nil =>
      refine ⟨?_, ?_⟩
      · intro doc count last h
        cases h
        exact ⟨[], [], .nil, .nil, rfl⟩
      · intro block doc count last h rest others hsplit
        cases h
        cases hsplit
        exact ⟨[], [], .nil, .nil, rfl⟩
  | cons line later ih =>
      obtain ⟨ihclosed, ihopen⟩ := ih
      obtain ⟨first, more, hlater⟩ :=
        List.exists_cons_of_ne_nil (List.splitOnP_ne_nil (·.isEmpty) (later.map trimEnd))
      simp only [List.foldlM_cons, bind_eq_ok_iff, List.map_cons]
      refine ⟨?_, ?_⟩
      · rintro doc count last ⟨next, hnext, hrest⟩
        cases Reading.step_of_line hnext with
        | blank hblank =>
            rw [hblank, paragraphs_nil_cons]
            exact ihclosed _ _ _ hrest
        | header hline hclosed hheader =>
            obtain ⟨bodies, entries, hbodies, hentries, hdoc⟩ := ihopen _ _ _ _ hrest first more hlater
            rw [paragraphs_cons_of_ne_nil hline hlater]
            exact ⟨⟨_, first⟩ :: bodies, entries, .cons ⟨_, rfl, hheader⟩ hbodies, hentries, hdoc⟩
        | entry hline hopen hentry => cases hopen
      · rintro block doc count last ⟨next, hnext, hrest⟩ rest others hsplit
        cases Reading.step_of_line hnext with
        | blank hblank =>
            rw [hblank, splitOnP_nil_cons] at hsplit
            cases hsplit
            exact ihclosed _ _ _ hrest
        | header hline hclosed hheader => cases hclosed
        | entry hline hopen hentry =>
            cases hopen
            rw [splitOnP_cons_of_ne_nil hline hlater] at hsplit
            cases hsplit
            obtain ⟨bodies, entries, hbodies, hentries, hdoc⟩ := ihopen _ _ _ _ hrest _ _ hlater
            have hline : Item.Says ⟨block, trimEnd line⟩ _ := Item.says_iff.mpr hentry
            exact ⟨bodies, _ :: entries, hbodies, .cons hline hentries, hdoc⟩

/-- In a listing that is read, every paragraph opens a block, and the document is built from what
the items of all blocks say. -/
theorem exists_bodies_of_parse {text : String} {doc : Document}
    (h : Document.parse text = .ok doc) :
    ∃ bodies entries, List.Forall₂ Body.IsOf (paragraphs (trimmedLines text)) bodies ∧
      List.Forall₂ Item.Says (bodies.flatMap Body.items) entries ∧
      doc = entries.foldl Document.add {} := by
  obtain ⟨last, hread, rfl⟩ := map_eq_ok_iff.mp h
  exact (exists_bodies_of_foldlM _).1 _ _ _ hread

end RemoteDebugger.Listing
