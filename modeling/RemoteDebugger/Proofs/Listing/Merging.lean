import RemoteDebugger.Proofs.Listing.Reading
import RemoteDebugger.Proofs.Text.Separators

/-!
# Listings one behind the other

A blank line closes the block that is open, so that a listing behind a blank line is read as it is
read alone.  Two listings with a blank line between them have the defect of the first one that has
any.  If neither has one, the document is that of the first with the entries of the second added:
`Document.Merges` says what it answers in terms of the two documents.

A file that both name moves to its place in the second, although files are meant to come in the order
in which they are first seen.
-/

namespace RemoteDebugger.Listing

open RemoteDebugger.Text

/-! ## Entries behind entries -/

/-- The origin of a line that stands behind `count` lines of its file. -/
def Origin.shift (origin : Origin) (count : Nat) : Origin :=
  { origin with line := count + origin.line }

theorem filesOf_append (entries later : List Entry) :
    filesOf (entries ++ later) = filesOf entries ++ filesOf later := by
  simp [filesOf, List.filterMap_append]

theorem originsOf_append (entries later : List Entry) :
    originsOf (entries ++ later) = originsOf entries ++
      (originsOf later).map fun (address, origin) =>
        (address, origin.shift (linesOf origin.file entries).length) := by
  induction later using List.reverseRecOn with
  | nil => simp [originsOf]
  | append_singleton front entry ih =>
      have hlast : (entry.origin? (entries ++ front)).toList =
          (entry.origin? front).toList.map fun (address, origin) =>
            (address, origin.shift (linesOf origin.file entries).length) := by
        rcases entry <;> simp [Entry.origin?, Origin.shift, linesOf_append]
      rw [← List.append_assoc, originsOf_concat, ih, hlast, originsOf_concat, List.map_append,
        List.append_assoc]

theorem latest?_map {κ α β : Type} [BEq κ] (key : κ) (pairs : List (κ × α)) (f : α → β) :
    latest? key (pairs.map fun (other, value) => (other, f value)) =
      (latest? key pairs).map f := by
  rw [latest?, latest?, ← List.map_reverse]
  induction pairs.reverse with
  | nil => rfl
  | cons pair later ih =>
      obtain ⟨other, value⟩ := pair
      by_cases h : key == other
      · simp [List.lookup_cons, h]
      · simpa [List.lookup_cons, h] using ih

namespace Document

/-! ## Merged documents -/

/-- A document answers its queries as two others together: the source lines of the second come behind
those of the first, and of two values for one key that of the second counts.  Files and sections that
the second names come last, in its order. -/
structure Merges (merged first second : Document) : Prop where
  source?_eq : ∀ file,
    merged.source? file = (first.source? file).merge (· ++ ·) (second.source? file)
  files_eq : merged.files = first.files.filter (· ∉ second.files) ++ second.files
  sectionName_eq : ∀ code, merged.sections.find? code =
    (second.sections.find? code).or (first.sections.find? code)
  sections_eq : merged.sections.names =
    first.sections.names.filter (· ∉ second.sections.names) ++ second.sections.names
  symbol?_eq : ∀ name, merged.symbol? name = (second.symbol? name).or (first.symbol? name)
  nameAt?_eq : ∀ address,
    merged.nameAt? address = (second.nameAt? address).or (first.nameAt? address)
  origin?_eq : ∀ address, merged.origin? address =
    ((second.origin? address).map fun origin =>
      origin.shift (first.lineCount origin.file)).or (first.origin? address)

theorem Lists.merges {merged first second : Document} {entries later : List Entry}
    (h : merged.Lists (entries ++ later)) (hfirst : first.Lists entries)
    (hsecond : second.Lists later) : merged.Merges first second where
  source?_eq file := by
    rw [h.source?_eq, hfirst.source?_eq, hsecond.source?_eq, linesOf_append]
    by_cases hentries : linesOf file entries = []
    · by_cases hlater : linesOf file later = []
      · simp [hentries, hlater]
      · simp [hentries, hlater]
    · by_cases hlater : linesOf file later = []
      · simp [hentries, hlater]
      · simp [hentries, hlater]
  files_eq := by
    rw [h.files_eq, hfirst.files_eq, hsecond.files_eq, filesOf_append, dedup_append]
    simp only [List.mem_dedup]
  sectionName_eq code := by
    rw [h.sectionName_eq, hfirst.sectionName_eq, hsecond.sectionName_eq, List.filterMap_append,
      latest?_append]
  sections_eq := by
    rw [h.sections_eq, hfirst.sections_eq, hsecond.sections_eq, List.filterMap_append,
      List.map_append, dedup_append]
    simp only [List.mem_dedup]
  symbol?_eq name := by
    rw [h.symbol?_eq, hfirst.symbol?_eq, hsecond.symbol?_eq, List.filterMap_append, latest?_append]
  nameAt?_eq address := by
    rw [h.nameAt?_eq, hfirst.nameAt?_eq, hsecond.nameAt?_eq, List.filterMap_append, latest?_append]
  origin?_eq address := by
    rw [h.origin?_eq, hfirst.origin?_eq, hsecond.origin?_eq, originsOf_append, latest?_append]
    simp only [hfirst.lineCount_eq]
    rw [← latest?_map address (originsOf later) fun origin =>
      origin.shift (linesOf origin.file entries).length]

/-! ## Texts -/

/-- The lines of two texts with a blank line between them. -/
theorem splitOn_append_blank_line (first second : String) :
    (first ++ "\n\n" ++ second).toList.splitOn '\n' =
      first.toList.splitOn '\n' ++ [] :: second.toList.splitOn '\n' := by
  have hbreaks : (first ++ "\n\n" ++ second).toList =
      first.toList ++ '\n' :: ([] ++ '\n' :: second.toList) := by
    simp
  rw [hbreaks, List.splitOn_eq_splitOnP, List.splitOnP_append_cons _ _ (by simp),
    List.splitOnP_append_cons _ _ (by simp)]
  rfl

/-- A listing behind a blank line is read as it is read alone, and its entries are added to the
document that was read before.  The first defect of both is the defect of the whole. -/
theorem parse_append_blank_line (first second : String) :
    match parse first, parse second with
    | .error e, _ => parse (first ++ "\n\n" ++ second) = .error e
    | .ok _, .error e => parse (first ++ "\n\n" ++ second) =
        .error ⟨e.line + first.toList.count '\n' + 2, e.defect⟩
    | .ok doc, .ok other => ∃ merged, parse (first ++ "\n\n" ++ second) = .ok merged ∧
        merged.Merges doc other := by
  have hlength := length_splitOn '\n' first.toList
  rcases parse_cases first with ⟨entries, next, hparse, hread⟩ | ⟨offset, defect, hparse, hread⟩
  · -- behind the blank line the second listing is read into the document of the first
    have hjoined : parse (first ++ "\n\n" ++ second) =
        (·.doc) <$> (second.toList.splitOn '\n').foldlM Reading.line
          ⟨entries.foldl add {}, none, first.toList.count '\n' + 2⟩ := by
      rw [parse, splitOn_append_blank_line, List.foldlM_append, hread]
      simp only [bind, Except.bind, List.foldlM_cons, Reading.line_nil, hlength, Nat.zero_add,
        Nat.add_assoc]
    rw [hjoined, hparse]
    rcases parse_cases second with ⟨later, last, hother, hmore⟩ | ⟨offset, defect, hother, hmore⟩
    · rw [hother, hmore]
      refine ⟨_, rfl, ?_⟩
      have hlists := lists_foldl_add (entries ++ later)
      rw [List.foldl_append] at hlists
      exact hlists.merges (lists_foldl_add entries) (lists_foldl_add later)
    · rw [hother, hmore]
      have hline : first.toList.count '\n' + 2 + offset =
          offset + first.toList.count '\n' + 2 := by
        omega
      rw [hline]
      rfl
  · have hjoined : parse (first ++ "\n\n" ++ second) = .error ⟨offset, defect⟩ := by
      rw [parse, splitOn_append_blank_line, List.foldlM_append, hread, Nat.zero_add]
      rfl
    rw [hjoined, hparse]

theorem exists_of_map_toOption {ε α β : Type} {result : Except ε α} {f : α → β} {b : β}
    (h : result.toOption.map f = some b) : ∃ a, result = .ok a ∧ f a = b := by
  rcases result with e | a
  · cases h
  · exact ⟨a, rfl, Option.some.inj h⟩

/-- Files do not come in the order in which they are first seen: one of the first listing that the
second goes on with comes behind one that it does not. -/
theorem not_files_first_seen :
    ¬ ∀ (first second : String) (doc other merged : Document), parse first = .ok doc →
      parse second = .ok other → parse (first ++ "\n\n" ++ second) = .ok merged →
        merged.files = doc.files ++ other.files.filter (· ∉ doc.files) := by
  intro hordered
  have hfirst : (parse "Source: a\n x\n\nSource: b\n y").toOption.map files =
      some ["a", "b"] := by
    decide +kernel
  have hsecond : (parse "Source: a\n z\n").toOption.map files = some ["a"] := by
    decide +kernel
  have hmerged : (parse ("Source: a\n x\n\nSource: b\n y" ++ "\n\n" ++
      "Source: a\n z\n")).toOption.map files = some ["b", "a"] := by
    decide +kernel
  obtain ⟨doc, hdoc, hfiles⟩ := exists_of_map_toOption hfirst
  obtain ⟨other, hother, hlater⟩ := exists_of_map_toOption hsecond
  obtain ⟨merged, hjoined, hlast⟩ := exists_of_map_toOption hmerged
  have horder := hordered _ _ doc other merged hdoc hother hjoined
  rw [hfiles, hlater, hlast] at horder
  simp at horder

end Document

end RemoteDebugger.Listing
