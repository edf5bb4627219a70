import Mathlib.Data.List.Forall2
import RemoteDebugger.Listing.Printed
import RemoteDebugger.Proofs.Listing.Reading
import RemoteDebugger.Proofs.Number.Digits
import RemoteDebugger.Proofs.Text.Separators
import RemoteDebugger.Proofs.Text.Trimming

/-!
# Printed listings are read back

Each item of a block is read as its entry, whatever texts it holds: the separators that the reader
looks for do not occur in the parts before them, and trimming removes no more than the blank that
printing put in front of a text.  From items the result goes on to blocks and to whole listings.
-/

namespace RemoteDebugger.Listing

open RemoteDebugger.Text

/-! ## Plain texts -/

namespace IsPlain

variable {text : List Char}

theorem not_blank (h : IsPlain text) : ∀ c ∈ text, isBlank c = false :=
  fun c hc => (h c hc).1

theorem colon_not_mem (h : IsPlain text) : ':' ∉ text := by
  intro hmem
  exact (h ':' hmem).2 rfl

theorem newline_not_mem (h : IsPlain text) : '\n' ∉ text := by
  intro hmem
  exact absurd (h.not_blank '\n' hmem) (by decide)

theorem space_not_mem (h : IsPlain text) : ' ' ∉ text := by
  intro hmem
  exact absurd (h.not_blank ' ' hmem) (by decide)

/-- Two plain texts with a colon between them hold no blank either. -/
theorem not_blank_around_colon {after : List Char} (h : IsPlain text) (hafter : IsPlain after) :
    ∀ c ∈ text ++ ':' :: after, isBlank c = false := by
  intro c hc
  rcases List.mem_append.mp hc with hfront | hback
  · exact h.not_blank c hfront
  · rcases List.mem_cons.mp hback with rfl | hlast
    · decide
    · exact hafter.not_blank c hlast

end IsPlain

theorem isPlain_of_digits {text : List Char} {letters : Hex.LetterCase}
    (h : ∀ c ∈ text, ∃ value < 16, c = Hex.digit letters value) : IsPlain text := by
  intro c hc
  obtain ⟨value, hvalue, rfl⟩ := h c hc
  obtain ⟨hblank, hmarks⟩ := Hex.digit_ne_mark hvalue letters
  exact ⟨hblank, hmarks ':' (by simp)⟩

theorem isPlain_printAddress (letters : Hex.LetterCase) (address : UInt16) :
    IsPlain (printAddress letters address) :=
  isPlain_of_digits fun _ => Hex.exists_of_mem_fixed

theorem isPlain_flatMap_byte (letters : Hex.LetterCase) (bytes : Bytes) :
    IsPlain (bytes.flatMap (Hex.byte letters)) :=
  isPlain_of_digits fun _ => Hex.exists_of_mem_flatMap_byte

theorem readAddress_printAddress (letters : Hex.LetterCase) (address : UInt16) :
    readAddress (printAddress letters address) = .ok address := by
  rw [readAddress, printAddress, Numeral.readWord_fixed]

theorem separate_of_not_mem {separator : Char} {before : List Char} (h : separator ∉ before)
    (after : List Char) :
    separate separator (before ++ separator :: after) = .ok (before, after) := by
  rw [separate, cut?_of_not_mem h]

/-! ## Items -/

/-- A line that a block reads as the given entry. -/
structure Block.Reads (block : Block) (line : List Char) (entry : Entry) : Prop where
  oneLine : '\n' ∉ line
  not_blank : trimEnd line ≠ []
  entry_eq : block.entry (trimEnd line) = .ok entry

theorem Phrase.trim_eq (phrase : Phrase) :
    trimStart (trimEnd (' ' :: phrase.text.toList)) = phrase.text.toList ∧
      trim (trimEnd (' ' :: phrase.text.toList)) = phrase.text.toList :=
  trim_blank_cons (by decide) phrase.start_not_blank phrase.end_not_blank

theorem reads_sectionName (code : Token) (name : Phrase) :
    Block.sections.Reads (code.text.toList ++ ':' :: ' ' :: name.text.toList)
      (.sectionName code.text name.text) := by
  have htrim : trimEnd (code.text.toList ++ ':' :: ' ' :: name.text.toList) =
      code.text.toList ++ ':' :: trimEnd (' ' :: name.text.toList) :=
    trimEnd_append_cons (by decide) _ _
  refine ⟨?_, ?_, ?_⟩
  · simp [code.plain.newline_not_mem, name.oneLine]
  · rw [htrim]
    simp
  · rw [htrim, Block.entry, separate_of_not_mem code.plain.colon_not_mem]
    simp only [bind, Except.bind, pure, Except.pure, trim_of_not_blank code.plain.not_blank,
      name.trim_eq.2, String.ofList_toList]

theorem reads_continuation (file : String) (line : Continuation) :
    (Block.source file).Reads line.text.toList (.continuation file line.text) := by
  have htrim : trimEnd line.text.toList = line.text.toList := trimEnd_eq_self line.end_not_blank
  refine ⟨line.oneLine, ?_, ?_⟩
  · intro hnil
    have hhead := line.indented
    rw [← htrim, hnil] at hhead
    cases hhead
  · rw [htrim, Block.entry, if_pos line.indented, String.ofList_toList]

section Letters

variable (letters : Hex.LetterCase)

theorem reads_symbol (name : SymbolName) (kind : Token) (address : UInt16) :
    Block.symbolsByName.Reads
      (name.text.toList ++ ' ' :: kind.text.toList ++ ':' :: printAddress letters address)
      (.symbol name.text kind.text address) := by
  have haddress := isPlain_printAddress letters address
  have htrim : trimEnd (name.text.toList ++ ' ' :: kind.text.toList ++
      ':' :: printAddress letters address) =
        name.text.toList ++ ' ' :: (kind.text.toList ++ ':' :: printAddress letters address) := by
    rw [trimEnd_append_cons (by decide), trimEnd_of_not_blank haddress.not_blank,
      List.append_assoc, List.cons_append]
  have hrest : trim (kind.text.toList ++ ':' :: printAddress letters address) =
      kind.text.toList ++ ':' :: printAddress letters address :=
    trim_of_not_blank (kind.plain.not_blank_around_colon haddress)
  refine ⟨?_, ?_, ?_⟩
  · simp [name.plain.newline_not_mem, kind.plain.newline_not_mem, haddress.newline_not_mem]
  · rw [htrim]
    simp
  · rw [htrim, Block.entry, separate_of_not_mem name.plain.space_not_mem]
    simp only [bind, Except.bind, pure, Except.pure, hrest,
      separate_of_not_mem kind.plain.colon_not_mem, trim_of_not_blank haddress.not_blank,
      readAddress_printAddress, String.ofList_toList]

theorem reads_nameAt (address : UInt16) (name : SymbolName) :
    Block.symbolsByValue.Reads (printAddress letters address ++ ' ' :: name.text.toList)
      (.nameAt address name.text) := by
  have haddress := isPlain_printAddress letters address
  have htrim : trimEnd (printAddress letters address ++ ' ' :: name.text.toList) =
      printAddress letters address ++ ' ' :: name.text.toList := by
    apply trimEnd_eq_self
    intro c hc
    rw [List.getLast?_append_of_ne_nil _ (by simp),
      List.getLast?_cons_of_ne_nil name.nonempty] at hc
    exact name.plain.not_blank c (List.mem_of_getLast? hc)
  refine ⟨?_, ?_, ?_⟩
  · simp [haddress.newline_not_mem, name.plain.newline_not_mem]
  · rw [htrim]
    simp
  · rw [htrim, Block.entry, separate_of_not_mem haddress.space_not_mem]
    simp only [bind, Except.bind, pure, Except.pure, readAddress_printAddress,
      trim_of_not_blank name.plain.not_blank, String.ofList_toList]

/-! ### Code lines -/

theorem decode_label {line : CodeLine} {name : SymbolName} (hbytes : line.bytes = [])
    (hlabel : line.label = some name) : ∃ fault, Hex.decode name.text.toList = .error fault := by
  cases hdecode : Hex.decode name.text.toList with
  | error fault => exact ⟨fault, rfl⟩
  | ok bytes => exact (line.label_not_code hbytes name hlabel (Hex.digits_of_decode hdecode)).elim

theorem words_bytes (bytes : Bytes) :
    words (bytes.flatMap (Hex.byte letters)) =
      if bytes = [] then [] else [bytes.flatMap (Hex.byte letters)] := by
  rw [words_of_not_blank (isPlain_flatMap_byte letters bytes).not_blank]
  cases bytes with
  | nil => rfl
  | cons b bytes => simp [Hex.byte]

/-- The code and the label of a line are told apart, also when one of them is missing. -/
theorem readFields_fields (line : CodeLine) :
    readFields (line.fields letters) = .ok (line.bytes, line.label.map fun name => name.text) := by
  have hwords : words (line.fields letters) =
      (if line.bytes = [] then [] else [line.bytes.flatMap (Hex.byte letters)]) ++
        (line.label.map fun name => name.text.toList).toList := by
    rw [CodeLine.fields, words_append_blank (by decide), words_bytes]
    cases line.label with
    | none => rfl
    | some name => simp [words_of_not_blank name.plain.not_blank, name.nonempty]
  rw [readFields]
  by_cases hbytes : line.bytes = []
  · cases hlabel : line.label with
    | none => simp [hwords, hbytes, hlabel]
    | some name =>
        obtain ⟨fault, hfault⟩ := decode_label hbytes hlabel
        simp [hwords, hbytes, hlabel, hfault]
  · cases hlabel : line.label with
    | none => simp [hwords, hbytes, hlabel, Hex.decode_flatMap_byte]
    | some name => simp [hwords, hbytes, hlabel, Hex.decode_flatMap_byte]

theorem not_mem_fields (line : CodeLine) :
    ':' ∉ line.fields letters ∧ '\n' ∉ line.fields letters := by
  have hbytes := isPlain_flatMap_byte letters line.bytes
  have hlabel : IsPlain ((line.label.map fun name => name.text.toList).getD []) := by
    cases line.label with
    | none => simp [IsPlain]
    | some name => exact name.plain
  constructor
  · simp [CodeLine.fields, -Option.getD_map, hbytes.colon_not_mem, hlabel.colon_not_mem]
  · simp [CodeLine.fields, -Option.getD_map, hbytes.newline_not_mem, hlabel.newline_not_mem]

theorem location_not_blank (line : CodeLine) : ∀ c ∈ line.location letters, isBlank c = false :=
  line.sectionCode.plain.not_blank_around_colon (isPlain_printAddress letters line.address)

theorem readCode_line (file : String) (line : CodeLine) (text : List Char) :
    readCode file (line.location letters ++ ' ' :: (line.fields letters ++ ':' :: text)) =
      .ok (.code file line.sectionCode.text line.address line.bytes
        (line.label.map fun name => name.text) (String.ofList (trimStart text))) := by
  have hcut : cut? isBlank (line.location letters ++
      ' ' :: (line.fields letters ++ ':' :: text)) =
        some (line.location letters, line.fields letters ++ ':' :: text) :=
    cut?_eq_some_iff.mpr ⟨' ', by decide, location_not_blank letters line, rfl⟩
  have hlocation : separate ':' (line.location letters) =
      .ok (line.sectionCode.text.toList, printAddress letters line.address) :=
    separate_of_not_mem line.sectionCode.plain.colon_not_mem _
  simp only [readCode, hcut, Option.getD_some, hlocation, bind, Except.bind, pure, Except.pure,
    readAddress_printAddress, separate_of_not_mem (not_mem_fields letters line).1,
    readFields_fields, String.ofList_toList]

theorem reads_code (file : String) (line : CodeLine) :
    (Block.source file).Reads (SourceItem.line letters (.code line))
      (.code file line.sectionCode.text line.address line.bytes
        (line.label.map fun name => name.text) line.text.text) := by
  have htrim : trimEnd (SourceItem.line letters (.code line)) = line.location letters ++
      ' ' :: (line.fields letters ++ ':' :: trimEnd (' ' :: line.text.text.toList)) := by
    rw [SourceItem.line, trimEnd_append_cons (by decide), List.append_assoc, List.cons_append]
  have hhead : (line.location letters ++ ' ' :: (line.fields letters ++
      ':' :: trimEnd (' ' :: line.text.text.toList))).head? ≠ some ' ' := by
    have hne : line.location letters ≠ [] := by simp [CodeLine.location]
    rw [List.head?_append_of_ne_nil _ hne]
    intro hspace
    have hblank := location_not_blank letters line ' ' (List.mem_of_head? hspace)
    exact absurd hblank (by decide)
  have haddress := isPlain_printAddress letters line.address
  refine ⟨?_, ?_, ?_⟩
  · simp [SourceItem.line, CodeLine.location, line.sectionCode.plain.newline_not_mem,
      haddress.newline_not_mem, (not_mem_fields letters line).2, line.text.oneLine]
  · rw [htrim]
    simp
  · rw [htrim, Block.entry, if_neg hhead, readCode_line, line.text.trim_eq.1,
      String.ofList_toList]

/-! ## Blocks -/

namespace PrintedBlock

def block : PrintedBlock → Block
  | .sections _ => .sections
  | .source file _ => .source file.text
  | .symbolsByName _ => .symbolsByName
  | .symbolsByValue _ => .symbolsByValue

theorem trimEnd_argument (printed : PrintedBlock) :
    trimEnd printed.argument = printed.argument := by
  cases printed with
  | source file items => exact trimEnd_concat (by decide) _
  | _ => rfl

theorem trimEnd_header (printed : PrintedBlock) : trimEnd printed.header = printed.header := by
  rw [header, trimEnd_append_cons (by decide), trimEnd_argument]

theorem ofHeader_header (printed : PrintedBlock) :
    Block.ofHeader printed.header = .ok printed.block := by
  have hcut : cut? (· == ':') printed.header = some (printed.title.toList, printed.argument) := by
    apply cut?_of_not_mem
    cases printed with
    | _ => simp [title]
  simp only [Block.ofHeader, hcut, Option.getD_some, String.ofList_toList]
  cases printed with
  | source file items =>
      have htrim : trim (argument (.source file items)) = '"' :: file.text.toList ++ ['"'] := by
        rw [← trimEnd_argument]
        refine (trim_blank_cons (by decide) ?_ ?_).2
        · intro c hc
          cases hc
          decide
        · intro c hc
          have hlast : ('"' :: file.text.toList ++ ['"']).getLast? = some '"' :=
            List.getLast?_concat
          cases hlast.symm.trans hc
          decide
      simp [title, htrim, unquote, block]
  | _ => rfl

theorem forall₂_map {α : Type} {block : Block} {line : α → List Char} {entry : α → Entry}
    (h : ∀ item, block.Reads (line item) (entry item)) (items : List α) :
    List.Forall₂ block.Reads (items.map line) (items.map entry) := by
  rw [List.forall₂_map_left_iff, List.forall₂_map_right_iff, List.forall₂_same]
  intro item _
  exact h item

/-- Every item of a block is read as its entry. -/
theorem reads_items (printed : PrintedBlock) :
    List.Forall₂ printed.block.Reads (printed.items letters) printed.entries := by
  cases printed with
  | sections names =>
      apply forall₂_map
      intro (code, name)
      exact reads_sectionName code name
  | source file items =>
      apply forall₂_map
      intro item
      cases item with
      | continuation line => exact reads_continuation file.text line
      | code line => exact reads_code letters file.text line
  | symbolsByName symbols =>
      apply forall₂_map
      intro (name, kind, address)
      exact reads_symbol letters name kind address
  | symbolsByValue names =>
      apply forall₂_map
      intro (address, name)
      exact reads_nameAt letters address name

theorem newline_not_mem_lines (printed : PrintedBlock) :
    ∀ line ∈ printed.lines letters, '\n' ∉ line := by
  have hheader : '\n' ∉ printed.header := by
    cases printed with
    | source file items => simp [header, title, argument, file.oneLine]
    | _ => simp [header, title, argument]
  have hitems : ∀ line ∈ printed.items letters, '\n' ∉ line := by
    have hboth := (printed.reads_items letters).imp fun line entry h => And.intro h.oneLine h
    exact ((List.forall₂_and_left _ _).mp hboth).1
  intro line hline
  simp only [lines, List.cons_append, List.mem_cons, List.mem_append, List.not_mem_nil,
    or_false] at hline
  rcases hline with rfl | hitem | rfl
  · exact hheader
  · exact hitems line hitem
  · simp

end PrintedBlock

/-- The items of an open block add their entries, one by one. -/
theorem foldlM_of_reads {block : Block} {lines : List (List Char)} {entries : List Entry}
    (h : List.Forall₂ block.Reads lines entries) (doc : Document) (count : Nat) :
    lines.foldlM Reading.line ⟨doc, some block, count⟩ =
      .ok ⟨entries.foldl Document.add doc, some block, count + lines.length⟩ := by
  induction h generalizing doc count with
  | nil => rfl
  | @cons line entry lines entries hline hlines ih =>
      have hstep : Reading.line ⟨doc, some block, count⟩ line =
          .ok ⟨doc.add entry, some block, count + 1⟩ :=
        (Reading.Step.entry hline.not_blank rfl hline.entry_eq).line_eq
      have hcount : count + 1 + lines.length = count + (line :: lines).length := by
        rw [List.length_cons]
        omega
      rw [List.foldlM_cons, hstep, ← hcount]
      exact ih (doc.add entry) (count + 1)

theorem foldlM_lines (printed : PrintedBlock) (doc : Document) (count : Nat) :
    (printed.lines letters).foldlM Reading.line ⟨doc, none, count⟩ =
      .ok ⟨printed.entries.foldl Document.add doc, none,
        count + (printed.lines letters).length⟩ := by
  have hheader : Reading.line ⟨doc, none, count⟩ printed.header =
      .ok ⟨doc, some printed.block, count + 1⟩ := by
    apply (Reading.Step.header _ rfl _).line_eq
    · rw [printed.trimEnd_header]
      simp [PrintedBlock.header]
    · rw [printed.trimEnd_header, printed.ofHeader_header]
  have hitems := foldlM_of_reads (printed.reads_items letters) doc (count + 1)
  have hcount : count + 1 + (printed.items letters).length + 1 =
      count + (printed.lines letters).length := by
    simp only [PrintedBlock.lines, List.length_append, List.length_cons, List.length_nil]
    omega
  rw [← hcount, PrintedBlock.lines, List.cons_append, List.foldlM_cons, hheader]
  simp only [bind, Except.bind, List.foldlM_append, hitems, List.foldlM_cons,
    Reading.line_nil, List.foldlM_nil, pure, Except.pure]

theorem foldlM_flatMap_lines (blocks : List PrintedBlock) (doc : Document) (count : Nat) :
    (blocks.flatMap (PrintedBlock.lines letters)).foldlM Reading.line ⟨doc, none, count⟩ =
      .ok ⟨(entriesOf blocks).foldl Document.add doc, none,
        count + (blocks.flatMap (PrintedBlock.lines letters)).length⟩ := by
  induction blocks generalizing doc count with
  | nil => rfl
  | cons printed blocks ih =>
      rw [entriesOf] at ih ⊢
      simp only [List.flatMap_cons, List.foldlM_append, List.foldl_append, List.length_append,
        foldlM_lines, bind, Except.bind, ih, Nat.add_assoc]

/-! ## Listings -/

theorem parse_printListing_eq (blocks : List PrintedBlock) :
    Document.parse (printListing letters blocks) =
      .ok ((entriesOf blocks).foldl Document.add {}) := by
  have hlines : ∀ line ∈ blocks.flatMap (PrintedBlock.lines letters), '\n' ∉ line := by
    intro line hline
    obtain ⟨printed, -, hmem⟩ := List.mem_flatMap.mp hline
    exact printed.newline_not_mem_lines letters line hmem
  rw [Document.parse, printListing, String.toList_ofList, splitOn_flatMap_concat hlines,
    List.foldlM_append, foldlM_flatMap_lines]
  -- behind the last line break there is one more empty line
  simp only [bind, Except.bind, List.foldlM_cons, Reading.line_nil, List.foldlM_nil, pure,
    Except.pure, Functor.map, Except.map]

/-- A printed listing is read without an error, and the document answers every query as the blocks
say, source windows included. -/
theorem parse_printListing (blocks : List PrintedBlock) :
    ∃ doc, Document.parse (printListing letters blocks) = .ok doc ∧
      doc.Lists (entriesOf blocks) ∧
      ∀ index radius,
        (∀ file, doc.window? (some file) index radius =
          Window.around? (linesOf file (entriesOf blocks)).toArray index radius) ∧
        (doc.window? none index radius =
          (filesOf (entriesOf blocks)).dedup.head?.bind fun file =>
            Window.around? (linesOf file (entriesOf blocks)).toArray index radius) ∧
        ∀ address, doc.windowAt? address radius =
          (latest? address (originsOf (entriesOf blocks))).bind fun origin =>
            Window.around? (linesOf origin.file (entriesOf blocks)).toArray origin.line
              radius := by
  have hlists := Document.lists_foldl_add (entriesOf blocks)
  refine ⟨_, parse_printListing_eq letters blocks, hlists, ?_⟩
  intro index radius
  refine ⟨?_, hlists.window?_first_eq index radius, ?_⟩
  · intro file
    exact hlists.window?_eq file index radius
  · intro address
    exact hlists.windowAt?_eq address radius

end Letters

example :
    printListing .upper
      [.source ⟨"main.s", by decide⟩
        [.code ⟨⟨"00", by decide⟩, 0x8000, [0xA9, 0xFF], some ⟨⟨"reset", by decide⟩, by decide⟩,
          ⟨"lda #$ff", by decide, by simp [isBlank], by simp [isBlank]⟩, by decide⟩],
        .symbolsByName [(⟨⟨"reset", by decide⟩, by decide⟩, ⟨"A", by decide⟩, 0x8000)]] =
      "Source: \"main.s\"\n00:8000 A9FF reset: lda #$ff\n\n" ++
        "Symbols by name:\nreset A:8000\n\n" := by
  decide

end RemoteDebugger.Listing
