import Mathlib.Data.Finset.Card
import Mathlib.Data.List.Dedup
import RemoteDebugger.Listing.Window

/-!
# Documents as lists of entries

A document is built from the entries of a listing, one after the other.  `Document.Lists` says what
it then answers to each query, in terms of the list of entries alone: the source lines of a file are
kept in order, and of several entries for one key the latest counts.  Names are listed in the order
of their latest entries.
-/

namespace RemoteDebugger.Listing

/-! ## What entries say -/

namespace Entry

/-- The file and the text of a source line. -/
def sourceLine? : Entry → Option (String × String)
  | continuation file text => some (file, text)
  | code file _ _ _ _ text => some (file, text)
  | _ => none

def sectionName? : Entry → Option (String × String)
  | sectionName sectionCode name => some (sectionCode, name)
  | _ => none

def symbol? : Entry → Option (String × Symbol)
  | symbol name kind address => some (name, { address, kind })
  | _ => none

def nameAt? : Entry → Option (UInt16 × String)
  | nameAt address name => some (address, name)
  | _ => none

end Entry

/-- The source lines of a file, in order. -/
def linesOf (file : String) (entries : List Entry) : List String :=
  ((entries.filterMap Entry.sourceLine?).filter (·.1 = file)).map Prod.snd

/-- The files of all source lines, in order and as often as they occur. -/
def filesOf (entries : List Entry) : List String :=
  (entries.filterMap Entry.sourceLine?).map Prod.fst

/-- The address of an entry and where it was assembled from, if `before` are the entries before it. -/
def Entry.origin? (before : List Entry) : Entry → Option (UInt16 × Origin)
  | code file sectionCode address bytes label _ =>
      some (address, { file, line := (linesOf file before).length, sectionCode, bytes, label })
  | _ => none

/-- The addresses of all code lines with their origins. -/
def originsOf (entries : List Entry) : List (UInt16 × Origin) :=
  entries.zipIdx.filterMap fun (entry, index) => entry.origin? (entries.take index)

/-- The latest value of a key. -/
def latest? {κ α : Type} [BEq κ] (key : κ) (pairs : List (κ × α)) : Option α :=
  pairs.reverse.lookup key

/-- A document answers its queries as the entries say. -/
structure Document.Lists (doc : Document) (entries : List Entry) : Prop where
  source?_eq : ∀ file, doc.source? file =
    if linesOf file entries = [] then none else some (linesOf file entries).toArray
  files_eq : doc.files = (filesOf entries).dedup
  sectionName_eq : ∀ code,
    doc.sections.find? code = latest? code (entries.filterMap Entry.sectionName?)
  sections_eq : doc.sections.names = ((entries.filterMap Entry.sectionName?).map Prod.fst).dedup
  symbol?_eq : ∀ name, doc.symbol? name = latest? name (entries.filterMap Entry.symbol?)
  nameAt?_eq : ∀ address, doc.nameAt? address = latest? address (entries.filterMap Entry.nameAt?)
  origin?_eq : ∀ address, doc.origin? address = latest? address (originsOf entries)
  size_eq : doc.size = ((originsOf entries).map Prod.fst).dedup.length
  isEmpty_eq : doc.isEmpty = (originsOf entries).isEmpty

/-! ## One more entry -/

/-- Of equal elements `dedup` keeps the last, so that those of the second list count. -/
theorem dedup_append {α : Type} [DecidableEq α] (xs ys : List α) :
    (xs ++ ys).dedup = xs.dedup.filter (· ∉ ys) ++ ys.dedup := by
  induction xs with
  | nil => simp
  | cons x xs ih =>
      by_cases hmem : x ∈ xs ++ ys
      · rw [List.cons_append, List.dedup_cons_of_mem hmem, ih]
        by_cases hx : x ∈ xs
        · rw [List.dedup_cons_of_mem hx]
        · have hy : x ∈ ys := by simpa [hx] using hmem
          simp [List.dedup_cons_of_notMem hx, hy]
      · have hx : x ∉ xs := fun h => hmem (by simp [h])
        have hy : x ∉ ys := fun h => hmem (by simp [h])
        rw [List.cons_append, List.dedup_cons_of_notMem hmem, ih, List.dedup_cons_of_notMem hx]
        simp [hy]

theorem dedup_concat {α : Type} [DecidableEq α] (xs : List α) (x : α) :
    (xs ++ [x]).dedup = xs.dedup.filter (· ≠ x) ++ [x] := by
  rw [dedup_append]
  simp

theorem length_dedup_concat {α : Type} [DecidableEq α] (xs : List α) (x : α) :
    (xs ++ [x]).dedup.length = if x ∈ xs then xs.dedup.length else xs.dedup.length + 1 := by
  have hinsert : (xs ++ [x]).toFinset = insert x xs.toFinset := by
    ext y
    simp
  rw [← List.card_toFinset, ← List.card_toFinset, hinsert, Finset.card_insert_eq_ite]
  simp

theorem latest?_append {κ α : Type} [BEq κ] (key : κ) (pairs later : List (κ × α)) :
    latest? key (pairs ++ later) = (latest? key later).or (latest? key pairs) := by
  rw [latest?, List.reverse_append, List.lookup_append]
  rfl

theorem latest?_concat {κ α : Type} [BEq κ] [LawfulBEq κ] [DecidableEq κ] (key : κ)
    (pairs : List (κ × α)) (last : κ × α) :
    latest? key (pairs ++ [last]) = if key = last.1 then some last.2 else latest? key pairs := by
  obtain ⟨other, value⟩ := last
  rw [latest?_append]
  by_cases h : key = other
  · simp [latest?, h]
  · have hbeq : (key == other) = false := by simpa using h
    simp [latest?, List.lookup_cons, h, hbeq]

theorem isSome_latest? {κ α : Type} [BEq κ] [LawfulBEq κ] (key : κ) (pairs : List (κ × α)) :
    (latest? key pairs).isSome = true ↔ key ∈ pairs.map Prod.fst := by
  rw [latest?, List.lookup_isSome_iff]
  constructor
  · rintro ⟨pair, hpair, hkey⟩
    obtain rfl : key = pair.1 := by simpa using hkey
    exact List.mem_map_of_mem (List.mem_reverse.mp hpair)
  · intro hkey
    obtain ⟨pair, hpair, rfl⟩ := List.mem_map.mp hkey
    exact ⟨pair, List.mem_reverse.mpr hpair, by simp⟩

theorem linesOf_append (file : String) (entries later : List Entry) :
    linesOf file (entries ++ later) = linesOf file entries ++ linesOf file later := by
  simp [linesOf, List.filterMap_append]

theorem originsOf_concat (entries : List Entry) (entry : Entry) :
    originsOf (entries ++ [entry]) = originsOf entries ++ (entry.origin? entries).toList := by
  have hfront : ∀ placed ∈ entries.zipIdx,
      placed.1.origin? ((entries ++ [entry]).take placed.2) =
        placed.1.origin? (entries.take placed.2) := by
    rintro ⟨other, index⟩ hmem
    have hindex : index ≤ entries.length := by
      have := List.mem_zipIdx hmem
      omega
    rw [List.take_append_of_le_length hindex]
  rw [originsOf, List.zipIdx_append, List.filterMap_append, List.filterMap_congr hfront]
  cases h : entry.origin? entries <;> simp [originsOf, h]

theorem getElem?_insert_eq_ite {κ α : Type} [Ord κ] [Std.TransOrd κ] [Std.LawfulEqOrd κ]
    [DecidableEq κ] (map : Std.ExtTreeMap κ α) (key other : κ) (value : α) :
    (map.insert other value)[key]? = if key = other then some value else map[key]? := by
  rw [Std.ExtTreeMap.getElem?_insert]
  by_cases h : key = other
  · simp [h]
  · have hne : compare other key ≠ .eq := fun heq => h (Std.compare_eq_iff_eq.mp heq).symm
    simp [h, hne]

namespace Document

theorem find?_addLine (sources : Table (Array String)) (file other text : String) :
    (addLine sources other text).find? file =
      if file = other then some (((sources.find? other).getD #[]).push text)
      else sources.find? file :=
  sources.find?_update other file _

theorem source?_add (doc : Document) (entry : Entry) (file : String) :
    (doc.add entry).source? file =
      if linesOf file [entry] = [] then doc.source? file
      else some ((doc.source? file).getD #[] ++ (linesOf file [entry]).toArray) := by
  have hline : ∀ other text, (addLine doc.sources other text).find? file =
      if ([(other, text)].filter (·.1 = file)).map Prod.snd = [] then doc.source? file
      else some ((doc.source? file).getD #[] ++
        (([(other, text)].filter (·.1 = file)).map Prod.snd).toArray) := by
    intro other text
    rw [find?_addLine]
    by_cases h : file = other
    · simp [h, source?]
    · have hother : other ≠ file := fun heq => h heq.symm
      simp [h, hother, source?]
  cases entry with
  | continuation other text => exact hline other text
  | code other sectionCode address bytes label text => exact hline other text
  | _ => simp [linesOf, Entry.sourceLine?, source?, add]

theorem lineCount_add (doc : Document) (entry : Entry) (file : String) :
    (doc.add entry).lineCount file = doc.lineCount file + (linesOf file [entry]).length := by
  rw [lineCount, source?_add]
  by_cases h : linesOf file [entry] = []
  · simp [h, lineCount]
  · simp [h, lineCount]

theorem files_add (doc : Document) (entry : Entry) :
    (doc.add entry).files = match entry.sourceLine? with
      | some (file, _) => doc.files.filter (· ≠ file) ++ [file]
      | none => doc.files := by
  cases entry with
  | continuation file text => exact doc.sources.names_update file _
  | code file sectionCode address bytes label text => exact doc.sources.names_update file _
  | _ => rfl

theorem sectionName_add (doc : Document) (entry : Entry) (code : String) :
    (doc.add entry).sections.find? code = match entry.sectionName? with
      | some (other, name) => if code = other then some name else doc.sections.find? code
      | none => doc.sections.find? code := by
  cases entry with
  | sectionName other name => exact doc.sections.find?_update other code _
  | _ => rfl

theorem sections_add (doc : Document) (entry : Entry) :
    (doc.add entry).sections.names = match entry.sectionName? with
      | some (code, _) => doc.sections.names.filter (· ≠ code) ++ [code]
      | none => doc.sections.names := by
  cases entry with
  | sectionName code name => exact doc.sections.names_update code _
  | _ => rfl

theorem symbol?_add (doc : Document) (entry : Entry) (name : String) :
    (doc.add entry).symbol? name = match entry.symbol? with
      | some (other, symbol) => if name = other then some symbol else doc.symbol? name
      | none => doc.symbol? name := by
  cases entry with
  | symbol other kind address => exact getElem?_insert_eq_ite doc.symbols name other _
  | _ => rfl

theorem nameAt?_add (doc : Document) (entry : Entry) (address : UInt16) :
    (doc.add entry).nameAt? address = match entry.nameAt? with
      | some (other, name) => if address = other then some name else doc.nameAt? address
      | none => doc.nameAt? address := by
  cases entry with
  | nameAt other name => exact getElem?_insert_eq_ite doc.names address other name
  | _ => rfl

theorem origin?_add_code (doc : Document) (file sectionCode : String) (other : UInt16)
    (bytes : Bytes) (label : Option String) (text : String) (address : UInt16) :
    (doc.add (.code file sectionCode other bytes label text)).origin? address =
      if address = other then
        some { file, line := doc.lineCount file, sectionCode, bytes, label }
      else doc.origin? address :=
  getElem?_insert_eq_ite doc.origins address other _

theorem origin?_add {doc : Document} {entries : List Entry}
    (hlines : ∀ file, doc.lineCount file = (linesOf file entries).length) (entry : Entry)
    (address : UInt16) :
    (doc.add entry).origin? address = match entry.origin? entries with
      | some (other, origin) => if address = other then some origin else doc.origin? address
      | none => doc.origin? address := by
  cases entry with
  | code file sectionCode other bytes label text =>
      rw [origin?_add_code, hlines]
      rfl
  | _ => rfl

theorem size_add (doc : Document) (entries : List Entry) (entry : Entry) :
    (doc.add entry).size = match entry.origin? entries with
      | some (address, _) =>
          if (doc.origin? address).isSome then doc.size else doc.size + 1
      | none => doc.size := by
  cases entry with
  | code file sectionCode address bytes label text =>
      simp [add, size, origin?, Entry.origin?, Std.ExtTreeMap.size_insert]
  | _ => rfl

theorem isEmpty_add (doc : Document) (entries : List Entry) (entry : Entry) :
    (doc.add entry).isEmpty = match entry.origin? entries with
      | some _ => false
      | none => doc.isEmpty := by
  cases entry with
  | code file sectionCode address bytes label text =>
      exact Std.ExtTreeMap.isEmpty_eq_false_iff.mpr Std.ExtTreeMap.insert_ne_empty
  | _ => rfl

/-! ## All entries -/

theorem Lists.lineCount_eq {doc : Document} {entries : List Entry} (h : doc.Lists entries)
    (file : String) : doc.lineCount file = (linesOf file entries).length := by
  rw [lineCount, h.source?_eq]
  by_cases hnil : linesOf file entries = []
  · simp [hnil]
  · simp [hnil]

/-- One more entry is one more for every query. -/
theorem Lists.add {doc : Document} {entries : List Entry} (h : doc.Lists entries)
    (entry : Entry) : (doc.add entry).Lists (entries ++ [entry]) where
  source?_eq file := by
    rw [source?_add, h.source?_eq, linesOf_append]
    by_cases hentry : linesOf file [entry] = []
    · simp [hentry]
    · by_cases hnil : linesOf file entries = []
      · simp [hentry, hnil]
      · simp [hentry, hnil]
  files_eq := by
    rw [files_add, h.files_eq]
    cases hline : entry.sourceLine? with
    | none => simp [filesOf, List.filterMap_append, hline]
    | some line => simp [filesOf, List.filterMap_append, hline, dedup_concat]
  sectionName_eq code := by
    rw [sectionName_add, h.sectionName_eq, List.filterMap_append]
    cases hname : entry.sectionName? with
    | none => simp [hname]
    | some name => simp [hname, latest?_concat]
  sections_eq := by
    rw [sections_add, h.sections_eq, List.filterMap_append]
    cases hname : entry.sectionName? with
    | none => simp [hname]
    | some name => simp [hname, dedup_concat]
  symbol?_eq name := by
    rw [symbol?_add, h.symbol?_eq, List.filterMap_append]
    cases hsymbol : entry.symbol? with
    | none => simp [hsymbol]
    | some symbol => simp [hsymbol, latest?_concat]
  nameAt?_eq address := by
    rw [nameAt?_add, h.nameAt?_eq, List.filterMap_append]
    cases hname : entry.nameAt? with
    | none => simp [hname]
    | some name => simp [hname, latest?_concat]
  origin?_eq address := by
    rw [origin?_add h.lineCount_eq, h.origin?_eq, originsOf_concat]
    cases horigin : entry.origin? entries with
    | none => simp
    | some origin => simp [latest?_concat]
  size_eq := by
    rw [size_add doc entries, h.size_eq, originsOf_concat]
    cases horigin : entry.origin? entries with
    | none => simp
    | some origin =>
        have hknown := isSome_latest? origin.1 (originsOf entries)
        rw [← h.origin?_eq] at hknown
        simp only [Option.toList_some, List.map_append, List.map_cons, List.map_nil,
          length_dedup_concat, hknown]
  isEmpty_eq := by
    rw [isEmpty_add doc entries, h.isEmpty_eq, originsOf_concat]
    cases entry.origin? entries with
    | none => simp
    | some origin => simp

theorem lists_empty : ({} : Document).Lists [] where
  source?_eq _ := rfl
  files_eq := rfl
  sectionName_eq _ := rfl
  sections_eq := rfl
  symbol?_eq _ := Std.ExtTreeMap.getElem?_empty
  nameAt?_eq _ := Std.ExtTreeMap.getElem?_empty
  origin?_eq _ := Std.ExtTreeMap.getElem?_empty
  size_eq := Std.ExtTreeMap.size_empty
  isEmpty_eq := Std.ExtTreeMap.isEmpty_empty

theorem lists_foldl_add (entries : List Entry) : (entries.foldl add {}).Lists entries := by
  induction entries using List.reverseRecOn with
  | nil => exact lists_empty
  | append_singleton front entry ih =>
      rw [List.foldl_append]
      exact ih.add entry

/-! ## Windows -/

theorem first?_eq_bind_find? {α : Type} (table : Table α) :
    table.first? = table.names.head?.bind table.find? := by
  rw [Table.first?, Table.names, List.head?_map]
  cases hentries : table.entries with
  | nil => rfl
  | cons entry later =>
      obtain ⟨name, value⟩ := entry
      simp [Table.find?, hentries]

/-- The lines of a file, which is the first one unless a name is given. -/
def sourceOf? (doc : Document) (file : Option String) : Option (Array String) :=
  (file.or doc.files.head?).bind doc.source?

theorem window?_eq_bind_sourceOf? (doc : Document) (file : Option String) (index radius : Nat) :
    doc.window? file index radius =
      (doc.sourceOf? file).bind fun texts => Window.around? texts index radius := by
  cases file with
  | none =>
      have hfirst : doc.files.head?.bind doc.source? = doc.sources.first? :=
        (first?_eq_bind_find? doc.sources).symm
      rw [sourceOf?, Option.none_or, hfirst]
      rfl
  | some file => rfl

theorem window?_none (doc : Document) (index radius : Nat) :
    doc.window? none index radius =
      doc.files.head?.bind fun file => doc.window? (some file) index radius := by
  simp only [window?_eq_bind_sourceOf?, sourceOf?, Option.none_or, Option.some_or,
    Option.bind_some, Option.bind_assoc]

namespace Lists

variable {doc : Document} {entries : List Entry}

theorem window?_eq (h : doc.Lists entries) (file : String) (index radius : Nat) :
    doc.window? (some file) index radius =
      Window.around? (linesOf file entries).toArray index radius := by
  rw [window?_eq_bind_sourceOf?, sourceOf?, Option.some_or, Option.bind_some, h.source?_eq]
  by_cases hnil : linesOf file entries = []
  · simp [hnil, Window.around?]
  · simp [hnil]

theorem window?_first_eq (h : doc.Lists entries) (index radius : Nat) :
    doc.window? none index radius = (filesOf entries).dedup.head?.bind fun file =>
      Window.around? (linesOf file entries).toArray index radius := by
  rw [window?_none, h.files_eq]
  simp only [h.window?_eq]

theorem windowAt?_eq (h : doc.Lists entries) (address : UInt16) (radius : Nat) :
    doc.windowAt? address radius = (latest? address (originsOf entries)).bind fun origin =>
      Window.around? (linesOf origin.file entries).toArray origin.line radius := by
  rw [windowAt?, h.origin?_eq]
  simp only [h.window?_eq]
  rfl

end Lists

end Document

end RemoteDebugger.Listing
