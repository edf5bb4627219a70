import RemoteDebugger.Listing.Window
import RemoteDebugger.Proofs.Listing.Reading

/-!
# The index of addresses

Each address of a listing points at a source line of its own: a code line enters its address
together with the line that it adds to its file, so that the line exists, and no other address has
it.  `Document.Indexed` is this invariant.  It holds of every listing that is read, and source
windows around an address depend on it.
-/

namespace RemoteDebugger.Listing

namespace Document

/-- The number of source lines of all files. -/
def lineTotal (doc : Document) : Nat :=
  (doc.sources.entries.flatMap fun source => source.2.toList).length

/-- Every address points at a source line, different addresses at different ones. -/
structure Indexed (doc : Document) : Prop where
  line_lt : ∀ address origin, doc.origin? address = some origin →
    origin.line < doc.lineCount origin.file
  eq_of_line_eq : ∀ first second origin other, doc.origin? first = some origin →
    doc.origin? second = some other → origin.file = other.file → origin.line = other.line →
      first = second
  size_le : doc.size ≤ doc.lineTotal

/-! ## One more entry -/

theorem length_flatMap_changeLast (file text : String) (entries : List (String × Array String)) :
    ((Table.changeLast file (fun lines => (lines.getD #[]).push text) entries).flatMap
      fun source => source.2.toList).length =
        (entries.flatMap fun source => source.2.toList).length + 1 := by
  induction entries with
  | nil => rfl
  | cons source later ih =>
      obtain ⟨other, lines⟩ := source
      by_cases h : other = file
      · simp only [Table.changeLast, h, if_true, List.flatMap_cons, List.flatMap_append,
          List.flatMap_nil, List.length_append, Option.getD_some, Array.toList_push]
        simp
        omega
      · simp only [Table.changeLast, h, if_false, List.flatMap_cons, List.length_append, ih]
        omega

theorem lineTotal_addLine (doc : Document) (file text : String) :
    { doc with sources := addLine doc.sources file text }.lineTotal = doc.lineTotal + 1 :=
  length_flatMap_changeLast file text doc.sources.entries

theorem Indexed.add_code {doc : Document} (h : doc.Indexed) (file sectionCode : String)
    (address : UInt16) (bytes : Bytes) (label : Option String) (text : String) :
    (doc.add (.code file sectionCode address bytes label text)).Indexed := by
  have hcount : ∀ other, doc.lineCount other ≤
      (doc.add (.code file sectionCode address bytes label text)).lineCount other := by
    intro other
    rw [lineCount_add]
    exact Nat.le_add_right _ _
  have hown : (doc.add (.code file sectionCode address bytes label text)).lineCount file =
      doc.lineCount file + 1 := by
    simp [lineCount_add, linesOf, Entry.sourceLine?]
  refine ⟨?_, ?_, ?_⟩
  · intro other origin horigin
    rw [origin?_add_code] at horigin
    by_cases hother : other = address
    · rw [if_pos hother] at horigin
      cases horigin
      dsimp only
      omega
    · rw [if_neg hother] at horigin
      exact Nat.lt_of_lt_of_le (h.line_lt _ _ horigin) (hcount _)
  · -- the new line lies behind all lines that were there before
    intro first second origin other hfirst hsecond hfile hline
    rw [origin?_add_code] at hfirst hsecond
    by_cases hone : first = address
    · by_cases htwo : second = address
      · rw [hone, htwo]
      · rw [if_pos hone] at hfirst
        rw [if_neg htwo] at hsecond
        cases hfirst
        have hold := h.line_lt _ _ hsecond
        rw [← hfile, ← hline] at hold
        exact absurd hold (Nat.lt_irrefl _)
    · by_cases htwo : second = address
      · rw [if_neg hone] at hfirst
        rw [if_pos htwo] at hsecond
        cases hsecond
        have hold := h.line_lt _ _ hfirst
        rw [hfile, hline] at hold
        exact absurd hold (Nat.lt_irrefl _)
      · rw [if_neg hone] at hfirst
        rw [if_neg htwo] at hsecond
        exact h.eq_of_line_eq _ _ _ _ hfirst hsecond hfile hline
  · have htotal : (doc.add (.code file sectionCode address bytes label text)).lineTotal =
        doc.lineTotal + 1 := lineTotal_addLine doc file text
    have hsize : (doc.add (.code file sectionCode address bytes label text)).size ≤
        doc.size + 1 := Std.ExtTreeMap.size_insert_le
    have := h.size_le
    omega

theorem Indexed.add {doc : Document} (h : doc.Indexed) (entry : Entry) :
    (doc.add entry).Indexed := by
  cases entry with
  | code file sectionCode address bytes label text =>
      exact h.add_code file sectionCode address bytes label text
  | continuation file text =>
      refine ⟨?_, h.eq_of_line_eq, ?_⟩
      · intro address origin horigin
        rw [lineCount_add]
        exact Nat.lt_add_right _ (h.line_lt address origin horigin)
      · have htotal : (doc.add (.continuation file text)).lineTotal = doc.lineTotal + 1 :=
          lineTotal_addLine doc file text
        have hsize : (doc.add (.continuation file text)).size = doc.size := rfl
        have := h.size_le
        omega
  | sectionName code name => exact ⟨h.line_lt, h.eq_of_line_eq, h.size_le⟩
  | symbol name kind address => exact ⟨h.line_lt, h.eq_of_line_eq, h.size_le⟩
  | nameAt address name => exact ⟨h.line_lt, h.eq_of_line_eq, h.size_le⟩

/-! ## Whole listings -/

theorem indexed_empty : ({} : Document).Indexed := by
  have hnone : ∀ address, ({} : Document).origin? address = none := lists_empty.origin?_eq
  refine ⟨?_, ?_, ?_⟩
  · intro address origin horigin
    rw [hnone] at horigin
    cases horigin
  · intro first second origin other hfirst
    rw [hnone] at hfirst
    cases hfirst
  · exact Nat.le_of_eq lists_empty.size_eq

theorem indexed_foldl_add (entries : List Entry) : (entries.foldl add {}).Indexed := by
  induction entries using List.reverseRecOn with
  | nil => exact indexed_empty
  | append_singleton front entry ih =>
      rw [List.foldl_append]
      exact ih.add entry

/-- Around an address that is indexed there is a window, with the line of the address in its
center. -/
theorem Indexed.exists_windowAt? {doc : Document} (h : doc.Indexed) {address : UInt16}
    {origin : Origin} (horigin : doc.origin? address = some origin) (radius : Nat) :
    ∃ lines window, doc.source? origin.file = some lines ∧
      ∃ hline : origin.line < lines.size, doc.windowAt? address radius = some window ∧
        window.center = ⟨origin.line, lines[origin.line]⟩ := by
  have hlt := h.line_lt address origin horigin
  rw [lineCount] at hlt
  cases hsource : doc.source? origin.file with
  | none => simp [hsource] at hlt
  | some lines =>
      have hline : origin.line < lines.size := by simpa [hsource] using hlt
      obtain ⟨window, hwindow, hcenter⟩ : ∃ window,
          Window.around? lines origin.line radius = some window ∧
            window.center = ⟨origin.line, lines[origin.line]⟩ := by
        simp [Window.around?, hline]
      refine ⟨lines, window, rfl, hline, ?_, hcenter⟩
      simp [windowAt?, horigin, window?, hsource, hwindow]

theorem mem_files_of_source? {doc : Document} {file : String} {lines : Array String}
    (h : doc.source? file = some lines) : file ∈ doc.files := by
  have hsome : (doc.sources.entries.lookup file).isSome = true := Option.isSome_of_eq_some h
  obtain ⟨source, hmem, hfile⟩ := List.lookup_isSome_iff.mp hsome
  obtain rfl : file = source.1 := by simpa using hfile
  exact List.mem_map_of_mem hmem

/-- In every listing that is read, an address that is indexed has a window around its own source
line and an address that is not has none, no two addresses share a line, and there are no more
addresses than lines. -/
theorem index_of_parse {text : String} {doc : Document} (h : Document.parse text = .ok doc) :
    (∀ address radius,
      (∀ origin, doc.origin? address = some origin →
        origin.file ∈ doc.files ∧
          ∃ lines window, doc.source? origin.file = some lines ∧
            ∃ hline : origin.line < lines.size, doc.windowAt? address radius = some window ∧
              window.center = ⟨origin.line, lines[origin.line]⟩) ∧
      (doc.origin? address = none → doc.windowAt? address radius = none)) ∧
    (∀ first second origin other, doc.origin? first = some origin →
      doc.origin? second = some other → first ≠ second →
        (origin.file, origin.line) ≠ (other.file, other.line)) ∧
    doc.size ≤ doc.lineTotal := by
  obtain ⟨entries, rfl⟩ := exists_entries_of_parse h
  have hindexed := indexed_foldl_add entries
  refine ⟨?_, ?_, hindexed.size_le⟩
  · intro address radius
    constructor
    · intro origin horigin
      obtain ⟨lines, window, hsource, hwindow⟩ := hindexed.exists_windowAt? horigin radius
      exact ⟨mem_files_of_source? hsource, lines, window, hsource, hwindow⟩
    · intro hnone
      simp [windowAt?, hnone]
  · intro first second origin other hfirst hsecond hne hsame
    obtain ⟨hfile, hline⟩ := Prod.mk.inj hsame
    exact hne (hindexed.eq_of_line_eq first second origin other hfirst hsecond hfile hline)

/-- A listing in which one address is assembled twice, in a file that is opened twice. -/
def reopened : String :=
  "Source: \"a.s\"\n0:8000 EA : nop\n\nSource: \"b.s\"\n0:8000 60 done: rts\n\n" ++
    "Source: \"a.s\"\n ; tail\n0:8001 60 : rts\n"

theorem index_of_reopened :
    ∃ doc, Document.parse reopened = .ok doc ∧
      doc.origin? 0x8001 = some ⟨"a.s", 2, "0", [0x60], none⟩ ∧
      ∃ lines window, doc.source? "a.s" = some lines ∧ ∃ hline : 2 < lines.size,
        doc.windowAt? 0x8001 0 = some window ∧ window.center = ⟨2, lines[2]⟩ := by
  have hparses : ((Document.parse reopened).toOption.bind (·.origin? 0x8001)) =
      some ⟨"a.s", 2, "0", [0x60], none⟩ := by
    decide +kernel
  cases hdoc : Document.parse reopened with
  | error e =>
      rw [hdoc] at hparses
      cases hparses
  | ok doc =>
      rw [hdoc] at hparses
      have horigin : doc.origin? 0x8001 = some ⟨"a.s", 2, "0", [0x60], none⟩ := hparses
      obtain ⟨hwindows, -, -⟩ := index_of_parse hdoc
      obtain ⟨-, hwindow⟩ := (hwindows 0x8001 0).1 _ horigin
      exact ⟨doc, rfl, horigin, hwindow⟩

end Document

end RemoteDebugger.Listing
