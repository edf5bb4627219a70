import RemoteDebugger.Proofs.Listing.Merging
import RemoteDebugger.Proofs.Listing.Paragraphs

/-!
# Lines grouped by what they say

What a document that is read answers, in terms of the lines of its text alone.  The source lines of a
file are those of all blocks of this file, in order.  Of the lines that say something of one key, the
last one counts.  Section codes come in the order of their last lines, and so do files, although
files are meant to come in the order in which they are first seen.
-/

namespace RemoteDebugger.Listing

open RemoteDebugger.Text

/-! ## The last element of a kind -/

/-- An element is the last one of its kind in a list, behind the elements `before`. -/
def IsLast {α : Type} (kind : α → Prop) (xs before : List α) (x : α) : Prop :=
  ∃ after, xs = before ++ x :: after ∧ kind x ∧ ∀ later ∈ after, ¬ kind later

section IsLast

variable {α : Type} {kind : α → Prop} {xs before : List α} {x last : α}

theorem isLast_concat_of_kind (h : kind last) :
    IsLast kind (xs ++ [last]) before x ↔ before = xs ∧ x = last := by
  constructor
  · rintro ⟨after, hsplit, -, hafter⟩
    rcases List.eq_nil_or_concat after with rfl | ⟨front, other, rfl⟩
    · obtain ⟨rfl, hx⟩ := List.append_inj' hsplit rfl
      exact ⟨rfl, (List.singleton_inj.mp hx).symm⟩
    · rw [List.concat_eq_append, ← List.cons_append, ← List.append_assoc] at hsplit
      obtain ⟨-, hother⟩ := List.append_inj' hsplit rfl
      obtain rfl := List.singleton_inj.mp hother
      exact (hafter last (by simp) h).elim
  · rintro ⟨rfl, rfl⟩
    exact ⟨[], rfl, h, by simp⟩

theorem isLast_concat_of_not (h : ¬ kind last) :
    IsLast kind (xs ++ [last]) before x ↔ IsLast kind xs before x := by
  constructor
  · rintro ⟨after, hsplit, hx, hafter⟩
    rcases List.eq_nil_or_concat after with rfl | ⟨front, other, rfl⟩
    · obtain ⟨-, hlast⟩ := List.append_inj' hsplit rfl
      obtain rfl := List.singleton_inj.mp hlast
      exact (h hx).elim
    · rw [List.concat_eq_append, ← List.cons_append, ← List.append_assoc] at hsplit
      obtain ⟨rfl, -⟩ := List.append_inj' hsplit rfl
      exact ⟨front, rfl, hx, fun later hlater => hafter later (by simp [hlater])⟩
  · rintro ⟨after, rfl, hx, hafter⟩
    refine ⟨after ++ [last], by simp, hx, ?_⟩
    simp only [List.mem_append, List.mem_singleton]
    rintro later (hlater | rfl)
    · exact hafter later hlater
    · exact h

end IsLast

section Forall₂

variable {α β : Type} {r : α → β → Prop} {xs : List α} {ys : List β}

theorem forall_mem_of_forall₂ (hr : List.Forall₂ r xs ys) {p : α → Prop} {q : β → Prop}
    (hpq : ∀ x y, r x y → p x → q y) (h : ∀ x ∈ xs, p x) : ∀ y ∈ ys, q y := by
  induction hr with
  | nil => simp
  | cons hxy _ ih =>
      rw [List.forall_mem_cons] at h ⊢
      exact ⟨hpq _ _ hxy h.1, ih h.2⟩

/-- Of lists whose elements belong together, the last elements of a kind do. -/
theorem IsLast.of_forall₂ {kind : α → Prop} {kind' : β → Prop}
    (hkind : ∀ x y, r x y → (kind x ↔ kind' y)) {before : List α} {x : α}
    (h : IsLast kind xs before x) (hr : List.Forall₂ r xs ys) :
    ∃ front y, List.Forall₂ r before front ∧ r x y ∧ IsLast kind' ys front y := by
  obtain ⟨after, rfl, hx, hafter⟩ := h
  induction before generalizing ys with
  | nil =>
      rw [List.nil_append, List.forall₂_cons_left_iff] at hr
      obtain ⟨y, later, hxy, hlater, rfl⟩ := hr
      refine ⟨[], y, .nil, hxy, later, rfl, (hkind _ _ hxy).mp hx, ?_⟩
      refine forall_mem_of_forall₂ hlater ?_ hafter
      intro x' y' hxy' hnot hy'
      exact hnot ((hkind _ _ hxy').mpr hy')
  | cons first before ih =>
      rw [List.cons_append, List.forall₂_cons_left_iff] at hr
      obtain ⟨second, later, hfirst, hlater, rfl⟩ := hr
      obtain ⟨front, y, hfront, hxy, more, rfl, hy⟩ := ih hlater
      exact ⟨second :: front, y, .cons hfirst hfront, hxy, more, rfl, hy⟩

end Forall₂

/-! ## Keys -/

/-- What the entry of a table is found by. -/
inductive Key where
  | sectionCode (code : String)
  | address (address : UInt16)
  | symbol (name : String)
  | value (address : UInt16)
  deriving DecidableEq, Repr

/-- The key of an entry that is found by one. -/
def Entry.key? : Entry → Option Key
  | sectionName sectionCode _ => some (.sectionCode sectionCode)
  | continuation _ _ => none
  | code _ _ address _ _ _ => some (.address address)
  | symbol name _ _ => some (.symbol name)
  | nameAt address _ => some (.value address)

def Entry.HasKey (key : Key) (entry : Entry) : Prop :=
  entry.key? = some key

/-- Whether a line says something of a key. -/
def Item.HasKey (key : Key) (item : Item) : Prop :=
  ∃ entry, item.Says entry ∧ entry.HasKey key

theorem Item.Says.hasKey_iff {item : Item} {entry : Entry} (h : item.Says entry) {key : Key} :
    item.HasKey key ↔ entry.HasKey key := by
  constructor
  · rintro ⟨other, hother, hkey⟩
    rwa [h.unique hother]
  · intro hkey
    exact ⟨entry, h, hkey⟩

section Latest

variable {κ α : Type} [BEq κ] [LawfulBEq κ] [DecidableEq κ] {pairs : List Entry → List (κ × α)}
  {view : List Entry → Entry → Option (κ × α)} {embed : κ → Key}

/-- The latest value of a key is what the last entry of this key says. -/
theorem latest?_eq_some_iff (hnil : pairs [] = [])
    (hconcat : ∀ front entry, pairs (front ++ [entry]) = pairs front ++ (view front entry).toList)
    (hkey : ∀ front entry key,
      entry.HasKey (embed key) ↔ ∃ value, view front entry = some (key, value))
    {entries : List Entry} {key : κ} {value : α} :
    latest? key (pairs entries) = some value ↔
      ∃ front entry, IsLast (Entry.HasKey (embed key)) entries front entry ∧
        view front entry = some (key, value) := by
  induction entries using List.reverseRecOn with
  | nil =>
      rw [hnil]
      constructor
      · intro h
        cases h
      · rintro ⟨front, entry, ⟨after, hsplit, -⟩, -⟩
        simp at hsplit
  | append_singleton entries last ih =>
      by_cases hlast : last.HasKey (embed key)
      · obtain ⟨latest, hlatest⟩ := (hkey entries last key).mp hlast
        rw [hconcat, hlatest, Option.toList_some, latest?_concat, if_pos rfl, Option.some.injEq]
        simp only [isLast_concat_of_kind hlast]
        constructor
        · rintro rfl
          exact ⟨entries, last, ⟨rfl, rfl⟩, hlatest⟩
        · rintro ⟨_, _, ⟨rfl, rfl⟩, hvalue⟩
          rw [hlatest] at hvalue
          cases hvalue
          rfl
      · simp only [isLast_concat_of_not hlast, ← ih]
        rw [hconcat]
        cases hview : view entries last with
        | none => simp
        | some pair =>
            obtain ⟨other, latest⟩ := pair
            have hne : key ≠ other := by
              rintro rfl
              exact hlast ((hkey entries last key).mpr ⟨latest, hview⟩)
            rw [Option.toList_some, latest?_concat, if_neg hne]

/-- The latest value of a key is what the last line of this key says. -/
theorem latest?_eq_some_iff_of_items (hnil : pairs [] = [])
    (hconcat : ∀ front entry, pairs (front ++ [entry]) = pairs front ++ (view front entry).toList)
    (hkey : ∀ front entry key,
      entry.HasKey (embed key) ↔ ∃ value, view front entry = some (key, value))
    {items : List Item} {entries : List Entry} (hlines : List.Forall₂ Item.Says items entries)
    {key : κ} {value : α} :
    latest? key (pairs entries) = some value ↔
      ∃ before item front entry, IsLast (Item.HasKey (embed key)) items before item ∧
        List.Forall₂ Item.Says before front ∧ item.Says entry ∧
          view front entry = some (key, value) := by
  rw [latest?_eq_some_iff hnil hconcat hkey]
  constructor
  · rintro ⟨front, entry, hlast, hview⟩
    have hkind : ∀ entry item, flip Item.Says entry item →
        (entry.HasKey (embed key) ↔ item.HasKey (embed key)) :=
      fun _ _ h => (Item.Says.hasKey_iff h).symm
    obtain ⟨before, item, hbefore, hitem, hline⟩ := hlast.of_forall₂ hkind hlines.flip
    exact ⟨before, item, front, entry, hline, hbefore.flip, hitem, hview⟩
  · rintro ⟨before, item, front, entry, hline, hbefore, hitem, hview⟩
    obtain ⟨front', entry', hfront, hentry, hlast⟩ :=
      hline.of_forall₂ (fun _ _ h => h.hasKey_iff) hlines
    obtain rfl := hitem.unique hentry
    obtain rfl : front = front' :=
      List.right_unique_forall₂' (fun _ _ _ h hother => h.unique hother) hbefore hfront
    exact ⟨front, entry, hlast, hview⟩

theorem latest?_filterMap_eq_some_iff {f : Entry → Option (κ × α)}
    (hkey : ∀ entry key, entry.HasKey (embed key) ↔ ∃ value, f entry = some (key, value))
    {items : List Item} {entries : List Entry} (hlines : List.Forall₂ Item.Says items entries)
    {key : κ} {value : α} :
    latest? key (entries.filterMap f) = some value ↔
      ∃ before item entry, IsLast (Item.HasKey (embed key)) items before item ∧
        item.Says entry ∧ f entry = some (key, value) := by
  have hconcat : ∀ front entry,
      (front ++ [entry]).filterMap f = front.filterMap f ++ (f entry).toList := by
    intro front entry
    cases h : f entry <;> simp [h]
  rw [latest?_eq_some_iff_of_items rfl hconcat (fun _ => hkey) hlines]
  constructor
  · rintro ⟨before, item, front, entry, hline, -, hitem, hvalue⟩
    exact ⟨before, item, entry, hline, hitem, hvalue⟩
  · rintro ⟨before, item, entry, hline, hitem, hvalue⟩
    obtain ⟨front, other, hfront, -⟩ := hline.of_forall₂ (fun _ _ h => h.hasKey_iff) hlines
    exact ⟨before, item, front, entry, hline, hfront, hitem, hvalue⟩

end Latest

/-! ## Source lines and section codes -/

/-- The file of a block of source. -/
def Block.file? : Block → Option String
  | source file => some file
  | _ => none

/-- The section code of a line in a block of sections. -/
def Item.sectionCode? : Item → Option String
  | ⟨.sections, line⟩ => some (String.ofList (trim (line.takeWhile (· ≠ ':'))))
  | _ => none

/-- The source lines of a file, in order. -/
def sourceTexts (file : String) (items : List Item) : List String :=
  (items.filter (·.block = .source file)).map fun item => String.ofList (sourceText item.line)

theorem Item.Says.sourceLine?_eq {item : Item} {entry : Entry} (h : item.Says entry) :
    entry.sourceLine? =
      item.block.file?.map fun file => (file, String.ofList (sourceText item.line)) := by
  cases h with
  | continuation hspace => simp [Entry.sourceLine?, Block.file?, sourceText, hspace]
  | code hline haddress hfields => simp [Entry.sourceLine?, Block.file?, hline.sourceText_eq]
  | _ => rfl

theorem Item.Says.sectionCode?_eq {item : Item} {entry : Entry} (h : item.Says entry) :
    entry.sectionName?.map Prod.fst = item.sectionCode? := by
  cases h with
  | @sectionName code name hcode =>
      rw [Item.sectionCode?, List.takeWhile_append_of_pos (ne_colon_of_not_mem hcode),
        List.takeWhile_cons_of_neg (by simp), List.append_nil]
      rfl
  | _ => rfl

theorem filterMap_eq_of_forall₂ {α β γ : Type} {r : α → β → Prop} {xs : List α} {ys : List β}
    (h : List.Forall₂ r xs ys) {f : α → Option γ} {g : β → Option γ}
    (hfg : ∀ x y, r x y → g y = f x) : ys.filterMap g = xs.filterMap f := by
  induction h with
  | nil => rfl
  | cons hxy _ ih => rw [List.filterMap_cons, List.filterMap_cons, hfg _ _ hxy, ih]

section Says

variable {items : List Item} {entries : List Entry} (hlines : List.Forall₂ Item.Says items entries)

include hlines

theorem linesOf_eq (file : String) : linesOf file entries = sourceTexts file items := by
  rw [linesOf, filterMap_eq_of_forall₂ hlines fun _ _ h => h.sourceLine?_eq, sourceTexts]
  clear hlines
  induction items with
  | nil => rfl
  | cons item items ih =>
      obtain ⟨block, line⟩ := item
      cases block with
      | source other =>
          by_cases hother : other = file
          · simpa [Block.file?, hother] using ih
          · simpa [Block.file?, hother] using ih
      | _ => simpa [Block.file?] using ih

theorem filesOf_eq : filesOf entries = items.filterMap (·.block.file?) := by
  rw [filesOf, filterMap_eq_of_forall₂ hlines fun _ _ h => h.sourceLine?_eq, List.map_filterMap]
  simp [Function.comp_def]

theorem sectionCodes_eq :
    (entries.filterMap Entry.sectionName?).map Prod.fst = items.filterMap Item.sectionCode? := by
  rw [List.map_filterMap]
  exact filterMap_eq_of_forall₂ hlines fun _ _ h => h.sectionCode?_eq

end Says

/-! ## Documents -/

/-- A document answers its queries as the lines of blocks say.  Of equal names `dedup` keeps the
last. -/
structure Document.Groups (doc : Document) (items : List Item) : Prop where
  source?_eq : ∀ file, doc.source? file =
    if sourceTexts file items = [] then none else some (sourceTexts file items).toArray
  files_eq : doc.files = (items.filterMap (·.block.file?)).dedup
  origin?_eq_some_iff : ∀ address origin, doc.origin? address = some origin ↔
    ∃ before item text, IsLast (Item.HasKey (.address address)) items before item ∧
      item.Says (.code origin.file origin.sectionCode address origin.bytes origin.label text) ∧
        origin.line = (sourceTexts origin.file before).length
  symbol?_eq_some_iff : ∀ name symbol, doc.symbol? name = some symbol ↔
    ∃ before item, IsLast (Item.HasKey (.symbol name)) items before item ∧
      item.Says (.symbol name symbol.kind symbol.address)
  nameAt?_eq_some_iff : ∀ address name, doc.nameAt? address = some name ↔
    ∃ before item, IsLast (Item.HasKey (.value address)) items before item ∧
      item.Says (.nameAt address name)
  sectionName_eq_some_iff : ∀ code name, doc.sections.find? code = some name ↔
    ∃ before item, IsLast (Item.HasKey (.sectionCode code)) items before item ∧
      item.Says (.sectionName code name)
  sections_eq : doc.sections.names = (items.filterMap Item.sectionCode?).dedup

namespace Entry

/-! What the entry of a key and a value is. -/

theorem origin?_eq_some_iff {before : List Entry} {entry : Entry} {address : UInt16}
    {origin : Origin} : entry.origin? before = some (address, origin) ↔
      ∃ text, entry = code origin.file origin.sectionCode address origin.bytes origin.label text ∧
        origin.line = (linesOf origin.file before).length := by
  obtain ⟨file, line, sectionCode, bytes, label⟩ := origin
  cases entry with
  | code file' sectionCode' address' bytes' label' text =>
      simp only [origin?, Option.some.injEq, Prod.mk.injEq, Origin.mk.injEq, code.injEq]
      constructor
      · rintro ⟨rfl, rfl, rfl, rfl, rfl, rfl⟩
        exact ⟨text, ⟨rfl, rfl, rfl, rfl, rfl, rfl⟩, rfl⟩
      · rintro ⟨_, ⟨rfl, rfl, rfl, rfl, rfl, rfl⟩, rfl⟩
        exact ⟨rfl, rfl, rfl, rfl, rfl, rfl⟩
  | _ => simp [origin?]

theorem symbol?_eq_some_iff {entry : Entry} {name : String} {value : Symbol} :
    entry.symbol? = some (name, value) ↔ entry = symbol name value.kind value.address := by
  obtain ⟨address, kind⟩ := value
  cases entry with
  | symbol other kind' address' => simp [symbol?, and_comm]
  | _ => simp [symbol?]

theorem nameAt?_eq_some_iff {entry : Entry} {address : UInt16} {name : String} :
    entry.nameAt? = some (address, name) ↔ entry = nameAt address name := by
  cases entry with
  | nameAt other name' => simp [nameAt?]
  | _ => simp [nameAt?]

theorem sectionName?_eq_some_iff {entry : Entry} {sectionCode name : String} :
    entry.sectionName? = some (sectionCode, name) ↔ entry = sectionName sectionCode name := by
  cases entry with
  | sectionName other name' => simp [sectionName?]
  | _ => simp [sectionName?]

end Entry

theorem Document.Lists.groups {doc : Document} {entries : List Entry} (h : doc.Lists entries)
    {items : List Item} (hlines : List.Forall₂ Item.Says items entries) : doc.Groups items where
  source?_eq file := by
    rw [h.source?_eq, linesOf_eq hlines]
  files_eq := by
    rw [h.files_eq, filesOf_eq hlines]
  origin?_eq_some_iff address origin := by
    have hkey : ∀ (front : List Entry) (entry : Entry) (address : UInt16),
        entry.HasKey (.address address) ↔ ∃ origin, entry.origin? front = some (address, origin) := by
      intro front entry address
      cases entry <;> simp [Entry.HasKey, Entry.key?, Entry.origin?]
    rw [h.origin?_eq, latest?_eq_some_iff_of_items rfl originsOf_concat hkey hlines]
    simp only [Entry.origin?_eq_some_iff]
    constructor
    · rintro ⟨before, item, front, entry, hlast, hbefore, hitem, text, rfl, hline⟩
      rw [linesOf_eq hbefore] at hline
      exact ⟨before, item, text, hlast, hitem, hline⟩
    · rintro ⟨before, item, text, hlast, hitem, hline⟩
      obtain ⟨front, other, hbefore, -⟩ := hlast.of_forall₂ (fun _ _ h => h.hasKey_iff) hlines
      rw [← linesOf_eq hbefore] at hline
      exact ⟨before, item, front, _, hlast, hbefore, hitem, text, rfl, hline⟩
  symbol?_eq_some_iff name symbol := by
    have hkey : ∀ (entry : Entry) (name : String),
        entry.HasKey (.symbol name) ↔ ∃ value, entry.symbol? = some (name, value) := by
      intro entry name
      cases entry <;> simp [Entry.HasKey, Entry.key?, Entry.symbol?]
    rw [h.symbol?_eq, latest?_filterMap_eq_some_iff hkey hlines]
    simp [Entry.symbol?_eq_some_iff]
  nameAt?_eq_some_iff address name := by
    have hkey : ∀ (entry : Entry) (address : UInt16),
        entry.HasKey (.value address) ↔ ∃ name, entry.nameAt? = some (address, name) := by
      intro entry address
      cases entry <;> simp [Entry.HasKey, Entry.key?, Entry.nameAt?]
    rw [h.nameAt?_eq, latest?_filterMap_eq_some_iff hkey hlines]
    simp [Entry.nameAt?_eq_some_iff]
  sectionName_eq_some_iff code name := by
    have hkey : ∀ (entry : Entry) (code : String),
        entry.HasKey (.sectionCode code) ↔ ∃ name, entry.sectionName? = some (code, name) := by
      intro entry code
      cases entry <;> simp [Entry.HasKey, Entry.key?, Entry.sectionName?]
    rw [h.sectionName_eq, latest?_filterMap_eq_some_iff hkey hlines]
    simp [Entry.sectionName?_eq_some_iff]
  sections_eq := by
    rw [h.sections_eq, sectionCodes_eq hlines]

/-- In a listing that is read, every paragraph is a block behind its header, every other line says
an entry, and the document answers every query as these lines say.  Files come in the order of their
last lines. -/
theorem Document.groups_of_parse {text : String} {doc : Document}
    (h : Document.parse text = .ok doc) :
    (paragraphs (trimmedLines text)).flatten = (trimmedLines text).filter (!·.isEmpty) ∧
      ∃ bodies, List.Forall₂ Body.IsOf (paragraphs (trimmedLines text)) bodies ∧
        (∀ item ∈ bodies.flatMap Body.items, ∃ entry, item.Says entry) ∧
        doc.Groups (bodies.flatMap Body.items) := by
  obtain ⟨bodies, entries, hbodies, hlines, rfl⟩ := exists_bodies_of_parse h
  have hboth := hlines.imp fun item entry hitem => And.intro (Exists.intro entry hitem) hitem
  exact ⟨flatten_paragraphs _, bodies, hbodies, ((List.forall₂_and_left _ _).mp hboth).1,
    (lists_foldl_add entries).groups hlines⟩

/-! ## A file that is continued -/

/-- A listing that goes on with its first file behind another one. -/
def continued : String :=
  "Source: main.s\n x\n\nSource: lib.s\n0:0200 EA : nop\n\nSource: main.s\n0:0200 60 done: rts\n"

theorem forall₂_continued : List.Forall₂ Body.IsOf (paragraphs (trimmedLines continued))
    [⟨.source "main.s", [" x".toList]⟩, ⟨.source "lib.s", ["0:0200 EA : nop".toList]⟩,
      ⟨.source "main.s", ["0:0200 60 done: rts".toList]⟩] := by
  have hlines : paragraphs (trimmedLines continued) =
      [["Source: main.s".toList, " x".toList],
        ["Source: lib.s".toList, "0:0200 EA : nop".toList],
        ["Source: main.s".toList, "0:0200 60 done: rts".toList]] := by
    decide +kernel
  rw [hlines]
  exact .cons ⟨_, rfl, rfl⟩ (.cons ⟨_, rfl, rfl⟩ (.cons ⟨_, rfl, rfl⟩ .nil))

theorem parse_continued : ∃ doc, Document.parse continued = .ok doc ∧
    doc.files = ["lib.s", "main.s"] ∧ doc.source? "main.s" = some #[" x", "rts"] ∧
      doc.origin? 0x0200 = some ⟨"main.s", 1, "0", [0x60], some "done"⟩ := by
  have hparses : (Document.parse continued).toOption.map
      (fun doc => (doc.files, doc.source? "main.s", doc.origin? 0x0200)) =
        some (["lib.s", "main.s"], some #[" x", "rts"],
          some ⟨"main.s", 1, "0", [0x60], some "done"⟩) := by
    decide +kernel
  obtain ⟨doc, hdoc, hanswers⟩ := Document.exists_of_map_toOption hparses
  obtain ⟨hfiles, hrest⟩ := Prod.mk.inj hanswers
  obtain ⟨hsource, horigin⟩ := Prod.mk.inj hrest
  exact ⟨doc, hdoc, hfiles, hsource, horigin⟩

/-- Both blocks of the first file give source lines, and the address of two lines has the origin of
the second. -/
theorem Document.groups_of_continued : ∃ doc, Document.parse continued = .ok doc ∧
    (∃ bodies, List.Forall₂ Body.IsOf (paragraphs (trimmedLines continued)) bodies ∧
      doc.Groups (bodies.flatMap Body.items)) ∧
    doc.source? "main.s" = some #[" x", "rts"] ∧
    doc.origin? 0x0200 = some ⟨"main.s", 1, "0", [0x60], some "done"⟩ := by
  obtain ⟨doc, hdoc, -, hsource, horigin⟩ := parse_continued
  obtain ⟨-, bodies, hbodies, -, hgroups⟩ := groups_of_parse hdoc
  exact ⟨doc, hdoc, ⟨bodies, hbodies, hgroups⟩, hsource, horigin⟩

/-- Files do not come in the order of their first lines. -/
theorem Document.not_files_by_first_line :
    ¬ ∀ (text : String) (doc : Document) (bodies : List Body), Document.parse text = .ok doc →
      List.Forall₂ Body.IsOf (paragraphs (trimmedLines text)) bodies →
        doc.files = ((bodies.flatMap Body.items).filterMap (·.block.file?)).reverse.dedup.reverse := by
  intro hordered
  obtain ⟨doc, hdoc, hfiles, -⟩ := parse_continued
  have hfirst := hordered continued doc _ hdoc forall₂_continued
  rw [hfiles] at hfirst
  revert hfirst
  decide

end RemoteDebugger.Listing
