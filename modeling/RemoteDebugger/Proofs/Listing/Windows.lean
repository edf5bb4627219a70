import Mathlib.Data.List.DropRight
import Mathlib.Data.List.Intervals
import RemoteDebugger.Proofs.Listing.Grouping
import RemoteDebugger.Proofs.Number.Printing
import RemoteDebugger.Proofs.Text.Separators

/-!
# What windows show

A window shows lines with consecutive indices and their own texts.  `Window.Shows` determines it
completely, and the arithmetic of machine words, which stops at the largest word, finds the same
window.  In print every line of a window is one row of text, and the row of the center is the only one
with an arrow.

Where no file is named, the window is in the first file of the document.  This is the file whose last
source line comes first, which need not be the file that a listing begins with.
-/

namespace RemoteDebugger.Listing

open RemoteDebugger.Numeral RemoteDebugger.Text

/-! ## Runs of source lines -/

/-- The source lines with the indices from `start` up to, but not including, `stop`. -/
structure IsRun (texts : Array String) (start stop : Nat) (lines : List SourceLine) : Prop where
  indices_eq : lines.map (·.index) = List.Ico start stop
  text_eq : ∀ line ∈ lines, texts[line.index]? = some line.text

/-- The line at an index, or the index itself where it is out of range. -/
def sourceLine (texts : Array String) (index : Nat) : Except Nat SourceLine :=
  match texts[index]? with
  | some text => .ok ⟨index, text⟩
  | none => .error index

section Runs

variable {texts : Array String} {start mid stop : Nat} {lines later : List SourceLine}

theorem IsRun.index_mem (h : IsRun texts start stop lines) {line : SourceLine}
    (hline : line ∈ lines) : start ≤ line.index ∧ line.index < stop := by
  have hindex : line.index ∈ lines.map (·.index) := List.mem_map_of_mem hline
  rwa [h.indices_eq, List.Ico.mem] at hindex

theorem isRun_singleton {index : Nat} {text : String} (h : texts[index]? = some text) :
    IsRun texts index (index + 1) [⟨index, text⟩] where
  indices_eq := by simp
  text_eq := by simpa using h

theorem IsRun.append (h : IsRun texts start mid lines) (hlater : IsRun texts mid stop later)
    (hstart : start ≤ mid) (hstop : mid ≤ stop) : IsRun texts start stop (lines ++ later) where
  indices_eq := by
    rw [List.map_append, h.indices_eq, hlater.indices_eq,
      List.Ico.append_consecutive hstart hstop]
  text_eq := by
    rw [List.forall_mem_append]
    exact ⟨h.text_eq, hlater.text_eq⟩

theorem isRun_sourceLines (texts : Array String) (start stop : Nat) :
    IsRun texts start (min stop texts.size) (sourceLines texts start stop) where
  indices_eq := by
    have hindices : (fun line : SourceLine => line.index) ∘
        (fun line : String × Nat => (⟨line.2, line.1⟩ : SourceLine)) = Prod.snd := rfl
    rw [sourceLines, List.map_map, hindices, List.zipIdx_map_snd, Array.length_toList,
      Array.size_extract, List.Ico]
  text_eq := by
    intro line hline
    obtain ⟨⟨text, index⟩, hmem, rfl⟩ := List.mem_map.mp hline
    rw [List.mk_mem_zipIdx_iff_le_and_getElem?_sub, Array.getElem?_toList] at hmem
    obtain ⟨hle, htext⟩ := hmem
    rw [Array.getElem?_extract, Nat.add_sub_cancel' hle] at htext
    split at htext
    · exact htext
    · cases htext

/-- Accesses in the order of the indices give the lines of a run, and none of them is out of range. -/
theorem IsRun.mapM_sourceLine (h : IsRun texts start stop lines) :
    (List.Ico start stop).mapM (sourceLine texts) = .ok lines := by
  rw [mapM_eq_ok_iff, ← h.indices_eq, List.forall₂_map_left_iff, List.forall₂_same]
  intro line hline
  rw [sourceLine, h.text_eq line hline]

theorem IsRun.unique (h : IsRun texts start stop lines) (hlater : IsRun texts start stop later) :
    lines = later :=
  Except.ok.inj (h.mapM_sourceLine.symm.trans hlater.mapM_sourceLine)

end Runs

/-! ## Windows -/

/-- A window shows the lines of a file around an index, as far as a radius and the ends of the file
allow: those before the index, the one at the index, and those behind it. -/
structure Window.Shows (window : Window) (texts : Array String) (index radius : Nat) : Prop where
  index_lt : index < texts.size
  lines_run : IsRun texts (index - radius) (min (texts.size - 1) (index + radius) + 1) window.lines
  center_eq : window.center.index = index
  before_lt : ∀ line ∈ window.before, line.index < index
  after_gt : ∀ line ∈ window.after, index < line.index

namespace Window

variable {texts : Array String} {index radius : Nat} {window other : Window}

theorem Shows.filter_before (h : window.Shows texts index radius) :
    window.lines.filter (·.index < index) = window.before := by
  have hafter : ∀ line ∈ window.after, ¬ line.index < index :=
    fun line hline => (h.after_gt line hline).not_gt
  have hbefore : window.before.filter (·.index < index) = window.before := by
    simpa using h.before_lt
  have hnone : window.after.filter (·.index < index) = [] := by
    simpa using hafter
  rw [lines, List.filter_append, List.filter_cons_of_neg (by simp [h.center_eq]), hbefore, hnone,
    List.append_nil]

/-- The center is the only line at the index. -/
theorem Shows.filter_center (h : window.Shows texts index radius) :
    window.lines.filter (·.index = index) = [window.center] := by
  have hbefore : window.before.filter (·.index = index) = [] := by
    simpa using fun line hline => (h.before_lt line hline).ne
  have hafter : window.after.filter (·.index = index) = [] := by
    simpa using fun line hline => (h.after_gt line hline).ne'
  rw [lines, List.filter_append, List.filter_cons_of_pos (by simp [h.center_eq]), hbefore, hafter,
    List.nil_append]

/-- What a window shows determines it. -/
theorem Shows.unique (h : window.Shows texts index radius)
    (hother : other.Shows texts index radius) : window = other := by
  have hlines := h.lines_run.unique hother.lines_run
  have hbefore : window.before = other.before := by
    rw [← h.filter_before, ← hother.filter_before, hlines]
  have hcenter : [window.center] = [other.center] := by
    rw [← h.filter_center, ← hother.filter_center, hlines]
  have hafter : window.after = other.after := by
    rw [lines, lines, hbefore, List.append_cancel_left_eq] at hlines
    exact (List.cons.inj hlines).2
  obtain ⟨before, center, after⟩ := window
  obtain ⟨before', center', after'⟩ := other
  obtain rfl : before = before' := hbefore
  obtain rfl : center = center' := List.singleton_inj.mp hcenter
  obtain rfl : after = after' := hafter
  rfl

theorem around?_eq_none_iff : around? texts index radius = none ↔ texts.size ≤ index := by
  rw [around?]
  split
  · next h => simpa using h
  · next h => simpa using h

/-- The window that is made around an index shows what it should, without an access to a line that
does not exist. -/
theorem shows_of_lt (h : index < texts.size) :
    Shows ⟨sourceLines texts (index - radius) index, ⟨index, texts[index]⟩,
      sourceLines texts (index + 1) (index + radius + 1)⟩ texts index radius := by
  have hbefore := isRun_sourceLines texts (index - radius) index
  have hcenter := isRun_singleton (Array.getElem?_eq_getElem h)
  have hafter := isRun_sourceLines texts (index + 1) (index + radius + 1)
  have hstop : min (index + radius + 1) texts.size =
      min (texts.size - 1) (index + radius) + 1 := by
    omega
  rw [Nat.min_eq_left h.le] at hbefore
  rw [hstop] at hafter
  refine ⟨h, ?_, rfl, ?_, ?_⟩
  · rw [lines]
    apply hbefore.append _ (Nat.sub_le index radius) (by omega)
    exact hcenter.append hafter (Nat.le_succ index) (by omega)
  · intro line hline
    exact (hbefore.index_mem hline).2
  · intro line hline
    exact (hafter.index_mem hline).1

theorem around?_eq_some_iff :
    around? texts index radius = some window ↔ window.Shows texts index radius := by
  constructor
  · intro h
    rw [around?] at h
    split at h
    · next hindex =>
        cases h
        exact shows_of_lt hindex
    · cases h
  · intro h
    rw [around?, dif_pos h.index_lt, Option.some.injEq]
    exact (shows_of_lt h.index_lt).unique h

end Window

/-! ## Machine words -/

/-- The sum of two words, or the largest word where there is none. -/
def saturatingAdd (x y : UInt64) : UInt64 :=
  .ofNat (min (x.toNat + y.toNat) (2 ^ 64 - 1))

/-- The difference of two words, or zero where there is none. -/
def saturatingSub (x y : UInt64) : UInt64 :=
  if y ≤ x then x - y else 0

theorem toNat_saturatingAdd (x y : UInt64) :
    (saturatingAdd x y).toNat = min (x.toNat + y.toNat) (2 ^ 64 - 1) := by
  rw [saturatingAdd, UInt64.toNat_ofNat_of_lt']
  simp only [UInt64.size]
  omega

theorem toNat_saturatingSub (x y : UInt64) : (saturatingSub x y).toNat = x.toNat - y.toNat := by
  rw [saturatingSub]
  split
  · next h => exact UInt64.toNat_sub_of_le x y h
  · next h =>
      rw [UInt64.not_le, UInt64.lt_iff_toNat_lt] at h
      rw [Nat.sub_eq_zero_of_le h.le]
      rfl

/-- The window around a line of a file, computed in words with one access for each line.  An access
that is out of range ends the computation. -/
def Window.aroundWord (texts : Array String) (index radius : UInt64) :
    Except Nat (Option Window) :=
  if index.toNat < texts.size then do
    let start := saturatingSub index radius
    let stop := min (saturatingAdd (saturatingAdd index radius) 1).toNat texts.size
    let before ← (List.Ico start.toNat index.toNat).mapM (sourceLine texts)
    let center ← sourceLine texts index.toNat
    let after ← (List.Ico (index + 1).toNat stop).mapM (sourceLine texts)
    return some { before, center, after }
  else return none

/-- The computation in words neither wraps around nor goes out of range. -/
theorem Window.aroundWord_eq {texts : Array String} (hsize : texts.size < 2 ^ 64)
    (index radius : UInt64) :
    aroundWord texts index radius = .ok (around? texts index.toNat radius.toNat) := by
  rw [aroundWord, around?]
  split
  · next h =>
      have hbefore := isRun_sourceLines texts (index.toNat - radius.toNat) index.toNat
      have hafter := isRun_sourceLines texts (index.toNat + 1) (index.toNat + radius.toNat + 1)
      have hcenter : sourceLine texts index.toNat = .ok ⟨index.toNat, texts[index.toNat]⟩ := by
        rw [sourceLine, Array.getElem?_eq_getElem h]
      have hnext : (index + 1).toNat = index.toNat + 1 := by
        rw [UInt64.toNat_add, UInt64.toNat_one, Nat.mod_eq_of_lt (by omega)]
      have hstop : min (saturatingAdd (saturatingAdd index radius) 1).toNat texts.size =
          min (index.toNat + radius.toNat + 1) texts.size := by
        simp only [toNat_saturatingAdd, UInt64.toNat_one]
        omega
      rw [Nat.min_eq_left h.le] at hbefore
      simp only [toNat_saturatingSub, hnext, hstop, hbefore.mapM_sourceLine, hcenter,
        hafter.mapM_sourceLine]
      rfl
  · rfl

/-! ## Windows of a document -/

namespace Document

theorem window?_eq_some_iff {doc : Document} {file : Option String} {index radius : Nat}
    {window : Window} : doc.window? file index radius = some window ↔
      ∃ texts, doc.sourceOf? file = some texts ∧ window.Shows texts index radius := by
  simp only [window?_eq_bind_sourceOf?, Option.bind_eq_some_iff, Window.around?_eq_some_iff]

theorem window?_eq_none_iff {doc : Document} {file : Option String} {index radius : Nat} :
    doc.window? file index radius = none ↔
      ∀ texts, doc.sourceOf? file = some texts → texts.size ≤ index := by
  simp only [window?_eq_bind_sourceOf?, Option.bind_eq_none_iff, Window.around?_eq_none_iff]

end Document

/-! ## Rows of text -/

/-- The mark of the line in the center. -/
def arrow : List Char := ['=', '>']

/-- The mark of every other line. -/
def noArrow : List Char := [' ', ' ']

/-- A line in print: its mark, its number, counted from one and aligned to the right, and its text. -/
def sourceRow (mark : List Char) (line : SourceLine) : List Char :=
  mark ++ ' ' :: (print .lower 10 (line.index + 1)).leftpad 5 ' ' ++ ' ' :: ' ' :: line.text.toList

/-- One row for each line of a window, with the arrow at the center. -/
def Window.rows (window : Window) : List (List Char) :=
  window.before.map (sourceRow noArrow) ++
    sourceRow arrow window.center :: window.after.map (sourceRow noArrow)

/-- The text of a window, which is empty where there is no window. -/
def printWindow (window : Option Window) : String :=
  (window.map Window.render).getD ""

/-- The rows of a window, of which there are none where there is no window. -/
def windowRows (window : Option Window) : List (List Char) :=
  (window.map Window.rows).getD []

theorem toList_alignRight (width number : Nat) :
    (alignRight width number).toList = (print .lower 10 number).leftpad width ' ' := by
  have hlength : (toString number).length = (print .lower 10 number).length := by
    rw [← toList_toString, String.length_toList]
  rw [alignRight, String.toList_append, String.toList_ofList, toList_toString, hlength,
    List.leftpad]

namespace Window

variable {texts : Array String} {index radius : Nat} {window : Window}

theorem rows_eq_map (h : window.Shows texts index radius) :
    window.rows = window.lines.map fun line =>
      sourceRow (if line.index = window.center.index then arrow else noArrow) line := by
  have hbefore : ∀ line ∈ window.before, line.index ≠ window.center.index := by
    intro line hline
    rw [h.center_eq]
    exact (h.before_lt line hline).ne
  have hafter : ∀ line ∈ window.after, line.index ≠ window.center.index := by
    intro line hline
    rw [h.center_eq]
    exact (h.after_gt line hline).ne'
  rw [rows, lines, List.map_append, List.map_cons, if_pos rfl]
  congr 1
  · exact List.map_congr_left fun line hline => by rw [if_neg (hbefore line hline)]
  · congr 1
    exact List.map_congr_left fun line hline => by rw [if_neg (hafter line hline)]

theorem toList_render (h : window.Shows texts index radius) :
    window.render.toList = window.rows.flatMap (· ++ ['\n']) := by
  rw [rows_eq_map h, render, String.toList_join, List.flatMap_map, List.flatMap_map]
  congr 1
  funext line
  have hmark : (if line.index = window.center.index then "=>" else "  ").toList =
      if line.index = window.center.index then arrow else noArrow := by
    split <;> rfl
  simp only [String.toList_append, hmark, toList_alignRight, sourceRow]
  simp

/-- The arrow stands before the row of the center and before no other row. -/
theorem filter_rows (window : Window) :
    window.rows.filter arrow.isPrefixOf = [sourceRow arrow window.center] := by
  have hnone : ∀ lines : List SourceLine,
      (lines.map (sourceRow noArrow)).filter arrow.isPrefixOf = [] := by
    intro lines
    rw [List.filter_map, List.map_eq_nil_iff, List.filter_eq_nil_iff]
    intro line _
    simp [sourceRow, arrow, noArrow]
  rw [rows, List.filter_append, List.filter_cons_of_pos (by simp [sourceRow, arrow]), hnone, hnone,
    List.nil_append]

end Window

/-! ## Texts of one line -/

theorem sourceText_subset (line : List Char) : sourceText line ⊆ line := by
  rw [sourceText]
  split
  · exact List.Subset.refl line
  · apply List.Subset.trans (List.dropWhile_suffix _).subset
    apply List.Subset.trans (List.drop_suffix _ _).subset
    exact List.Subset.trans (List.dropWhile_suffix _).subset (List.dropWhile_suffix _).subset

theorem newline_not_mem_of_mem_trimmedLines {text : String} {line : List Char}
    (h : line ∈ trimmedLines text) : '\n' ∉ line := by
  obtain ⟨part, hpart, rfl⟩ := List.mem_map.mp h
  have hsubset : trimEnd part ⊆ part := (List.rdropWhile_prefix isBlank part).subset
  exact fun hmem => not_mem_of_mem_splitOn hpart (hsubset hmem)

/-- The lines of blocks are lines of their paragraphs. -/
theorem mem_flatten_of_mem_items {parts : List (List (List Char))} {bodies : List Body}
    (h : List.Forall₂ Body.IsOf parts bodies) {item : Item}
    (hitem : item ∈ bodies.flatMap Body.items) : item.line ∈ parts.flatten := by
  induction h with
  | nil => simp at hitem
  | cons hbody _ ih =>
      obtain ⟨header, rfl, -⟩ := hbody
      rw [List.flatMap_cons, List.mem_append] at hitem
      rw [List.flatten_cons, List.mem_append]
      rcases hitem with hfirst | hlater
      · obtain ⟨line, hline, rfl⟩ := List.mem_map.mp hfirst
        exact .inl (List.mem_cons_of_mem header hline)
      · exact .inr (ih hlater)

/-- Source lines of a listing that is read have no line feeds in them. -/
theorem Document.newline_not_mem_of_parse {text : String} {doc : Document}
    (h : parse text = .ok doc) {file : String} {texts : Array String}
    (htexts : doc.source? file = some texts) : ∀ line ∈ texts, '\n' ∉ line.toList := by
  obtain ⟨bodies, entries, hbodies, hlines, rfl⟩ := exists_bodies_of_parse h
  rw [(lists_foldl_add entries).source?_eq, linesOf_eq hlines] at htexts
  split at htexts
  · cases htexts
  · cases htexts
    intro line hline
    rw [List.mem_toArray] at hline
    obtain ⟨item, hitem, rfl⟩ := List.mem_map.mp hline
    have hmem := mem_flatten_of_mem_items hbodies (List.mem_filter.mp hitem).1
    rw [flatten_paragraphs, List.mem_filter] at hmem
    rw [String.toList_ofList]
    exact fun hnewline =>
      newline_not_mem_of_mem_trimmedLines hmem.1 (sourceText_subset item.line hnewline)

theorem newline_not_mem_sourceRow {mark : List Char} (hmark : '\n' ∉ mark) {line : SourceLine}
    (h : '\n' ∉ line.text.toList) : '\n' ∉ sourceRow mark line := by
  have hdigits : '\n' ∉ print .lower 10 (line.index + 1) := by
    intro hmem
    have hblank := (denotes_print .lower (by decide) (by decide) (line.index + 1)).not_blank _ hmem
    exact absurd hblank (by decide)
  simp [sourceRow, List.leftpad, hmark, hdigits, h]

/-- A window of a listing that is read is printed in its rows. -/
theorem Document.splitOn_printWindow {text : String} {doc : Document} (h : parse text = .ok doc)
    (file : Option String) (index radius : Nat) :
    (printWindow (doc.window? file index radius)).toList.splitOn '\n' =
      windowRows (doc.window? file index radius) ++ [[]] := by
  cases hwindow : doc.window? file index radius with
  | none => rfl
  | some window =>
      obtain ⟨texts, htexts, hshows⟩ := window?_eq_some_iff.mp hwindow
      obtain ⟨name, -, hname⟩ := Option.bind_eq_some_iff.mp htexts
      have hline : ∀ line ∈ window.lines, '\n' ∉ line.text.toList := by
        intro line hline
        have htext := hshows.lines_run.text_eq line hline
        exact newline_not_mem_of_parse h hname _ (Array.mem_of_getElem? htext)
      have hrows : ∀ row ∈ window.rows, '\n' ∉ row := by
        intro row hrow
        rw [Window.rows_eq_map hshows] at hrow
        obtain ⟨line, hmem, rfl⟩ := List.mem_map.mp hrow
        apply newline_not_mem_sourceRow _ (hline line hmem)
        split <;> decide
      rw [printWindow, Option.map_some, Option.getD_some, Window.toList_render hshows,
        splitOn_flatMap_concat hrows]
      rfl

/-! ## The first file -/

/-- The file of every source line, in order. -/
def sourceFiles (items : List Item) : List String :=
  items.filterMap (·.block.file?)

/-- The first element keeps its place if it does not come again behind another one. -/
theorem head?_dedup_cons {α : Type} [DecidableEq α] {x : α} {later : List α}
    (h : x ∉ later.dropWhile (· = x)) : (x :: later).dedup.head? = some x := by
  induction later with
  | nil => simp
  | cons y later ih =>
      by_cases hy : y = x
      · rw [hy, List.dropWhile_cons_of_pos (by simp)] at h
        rw [hy, List.dedup_cons_of_mem List.mem_cons_self, ih h]
      · rw [List.dropWhile_cons_of_neg (by simpa using hy)] at h
        rw [List.dedup_cons_of_notMem h, List.head?_cons]

/-- The first file of a listing that is read is the one whose last source line comes first.  It is
the file of the first source line if the listing does not go on with this file behind another. -/
theorem Document.head?_files_of_parse {text : String} {doc : Document}
    (h : parse text = .ok doc) {bodies : List Body}
    (hbodies : List.Forall₂ Body.IsOf (paragraphs (trimmedLines text)) bodies) :
    doc.files.head? = (sourceFiles (bodies.flatMap Body.items)).dedup.head? ∧
      ∀ first later, sourceFiles (bodies.flatMap Body.items) = first :: later →
        first ∉ later.dropWhile (· = first) → doc.files.head? = some first := by
  obtain ⟨bodies', entries, hbodies', hlines, rfl⟩ := exists_bodies_of_parse h
  obtain rfl : bodies' = bodies :=
    List.right_unique_forall₂' (fun _ _ _ h hother => h.unique hother) hbodies' hbodies
  have hfiles := (lists_foldl_add entries).files_eq
  rw [filesOf_eq hlines] at hfiles
  refine ⟨congrArg List.head? hfiles, ?_⟩
  intro first later hfirst hnot
  have hhead := head?_dedup_cons hnot
  rw [← hfirst] at hhead
  exact (congrArg List.head? hfiles).trans hhead

/-! ## Windows are exact -/

/-- For every document, file, index and radius: there is a window exactly where there is such a line,
and it shows the lines around it, which computation in machine words finds as well.  The window of a
listing that is read is printed with one row for each of its lines, of which only the center has the
arrow.  Unless a file is named, the window is in the file whose last source line comes first. -/
theorem Document.windows_exact (doc : Document) (file : Option String) (index radius : Nat) :
    (∀ window, doc.window? file index radius = some window ↔
      ∃ texts, doc.sourceOf? file = some texts ∧ window.Shows texts index radius) ∧
    (doc.window? file index radius = none ↔
      ∀ texts, doc.sourceOf? file = some texts → texts.size ≤ index) ∧
    (∀ (texts : Array String) (line range : UInt64), doc.sourceOf? file = some texts →
      texts.size < 2 ^ 64 → Window.aroundWord texts line range =
        .ok (doc.window? file line.toNat range.toNat)) ∧
    ∀ text, parse text = .ok doc →
      (printWindow (doc.window? file index radius)).toList.splitOn '\n' =
        windowRows (doc.window? file index radius) ++ [[]] ∧
      (windowRows (doc.window? file index radius)).filter arrow.isPrefixOf =
        ((doc.window? file index radius).map fun window => sourceRow arrow window.center).toList ∧
      ∃ bodies, List.Forall₂ Body.IsOf (paragraphs (trimmedLines text)) bodies ∧
        doc.files.head? = (sourceFiles (bodies.flatMap Body.items)).dedup.head? ∧
        ∀ first later, sourceFiles (bodies.flatMap Body.items) = first :: later →
          first ∉ later.dropWhile (· = first) → doc.files.head? = some first := by
  refine ⟨fun window => window?_eq_some_iff, window?_eq_none_iff, ?_, ?_⟩
  · intro texts line range htexts hsize
    rw [Window.aroundWord_eq hsize, window?_eq_bind_sourceOf?, htexts, Option.bind_some]
  · intro text hparse
    obtain ⟨bodies, -, hbodies, -, -⟩ := exists_bodies_of_parse hparse
    refine ⟨splitOn_printWindow hparse file index radius, ?_, bodies, hbodies,
      head?_files_of_parse hparse hbodies⟩
    cases doc.window? file index radius with
    | none => rfl
    | some window => exact window.filter_rows

/-- In a file with two lines, the largest radius shows both of them around the second. -/
theorem Document.windows_exact_at_limit : ∃ doc, parse continued = .ok doc ∧
    doc.sourceOf? (some "main.s") = some #[" x", "rts"] ∧
    Window.aroundWord #[" x", "rts"] 1 (.ofNat (2 ^ 64 - 1)) =
      .ok (some ⟨[⟨0, " x"⟩], ⟨1, "rts"⟩, []⟩) ∧
    (printWindow (doc.window? (some "main.s") 1 (2 ^ 64 - 1))).toList.splitOn '\n' =
      ["       1   x".toList, "=>     2  rts".toList, []] := by
  obtain ⟨doc, hdoc, -, hsource, -⟩ := parse_continued
  have hshows : Window.Shows ⟨[⟨0, " x"⟩], ⟨1, "rts"⟩, []⟩ #[" x", "rts"] 1 (2 ^ 64 - 1) :=
    Window.around?_eq_some_iff.mp (by decide +kernel)
  obtain ⟨hwindow, -, hwords, hprint⟩ := windows_exact doc (some "main.s") 1 (2 ^ 64 - 1)
  have hsome := (hwindow _).mpr ⟨_, hsource, hshows⟩
  have hword := hwords _ 1 (.ofNat (2 ^ 64 - 1)) hsource (by decide)
  obtain ⟨hrows, -⟩ := hprint continued hdoc
  refine ⟨doc, hdoc, hsource, ?_, ?_⟩
  · rw [hword, UInt64.toNat_ofNat_of_lt' (by decide), UInt64.toNat_one, hsome]
  · rw [hrows, hsome]
    decide +kernel

/-- Unless a file is named, the window need not be in the file that a listing begins with. -/
theorem Document.not_window_of_first_file :
    ¬ ∀ (text : String) (doc : Document) (bodies : List Body) (index radius : Nat),
      parse text = .ok doc → List.Forall₂ Body.IsOf (paragraphs (trimmedLines text)) bodies →
        doc.window? none index radius =
          (sourceFiles (bodies.flatMap Body.items)).head?.bind fun file =>
            doc.window? (some file) index radius := by
  intro hfirst
  have hparses : (parse continued).toOption.map
      (fun doc => (doc.window? none 0 0, doc.window? (some "main.s") 0 0)) =
        some (some ⟨[], ⟨0, "nop"⟩, []⟩, some ⟨[], ⟨0, " x"⟩, []⟩) := by
    decide +kernel
  obtain ⟨doc, hdoc, hwindows⟩ := exists_of_map_toOption hparses
  obtain ⟨hnone, hmain⟩ := Prod.mk.inj hwindows
  have hsame := hfirst continued doc _ 0 0 hdoc forall₂_continued
  have hhead : (sourceFiles (List.flatMap Body.items [⟨.source "main.s", [" x".toList]⟩,
      ⟨.source "lib.s", ["0:0200 EA : nop".toList]⟩,
      ⟨.source "main.s", ["0:0200 60 done: rts".toList]⟩])).head? = some "main.s" := rfl
  rw [hnone, hhead, Option.bind_some, hmain] at hsame
  revert hsame
  decide

end RemoteDebugger.Listing
