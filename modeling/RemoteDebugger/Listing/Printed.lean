import RemoteDebugger.Listing.Parser

/-!
# Printed listings

The blocks of a listing as an assembler writes them: a header line, one line for each item, and a
blank line at the end.  The types of the parts admit only what can be told apart in print.  A token
has no blank and no colon, a phrase begins and ends without a blank, and the label of a line without
machine code cannot be taken for code.  `PrintedBlock.entries` says what the lines stand for.
-/

namespace RemoteDebugger.Listing

open RemoteDebugger.Text

/-! ## Parts of a line -/

/-- Whether a text has neither a blank nor a colon. -/
def IsPlain (text : List Char) : Prop :=
  ∀ c ∈ text, isBlank c = false ∧ c ≠ ':'

instance (text : List Char) : Decidable (IsPlain text) :=
  List.decidableBAll (fun c => isBlank c = false ∧ c ≠ ':') text

/-- A plain text, which may be empty. -/
structure Token where
  text : String
  plain : IsPlain text.toList

/-- The name of a symbol, or a label. -/
structure SymbolName extends Token where
  nonempty : text.toList ≠ []

/-- Text on one line without blanks at its ends. -/
structure Phrase where
  text : String
  oneLine : '\n' ∉ text.toList
  start_not_blank : ∀ c ∈ text.toList.head?, isBlank c = false
  end_not_blank : ∀ c ∈ text.toList.getLast?, isBlank c = false

/-- The name of a source file. -/
structure FileName where
  text : String
  oneLine : '\n' ∉ text.toList

/-- A source line that continues a statement. -/
structure Continuation where
  text : String
  oneLine : '\n' ∉ text.toList
  indented : text.toList.head? = some ' '
  end_not_blank : ∀ c ∈ text.toList.getLast?, isBlank c = false

/-- A source line with the code assembled from it. -/
structure CodeLine where
  sectionCode : Token
  address : UInt16
  bytes : Bytes
  label : Option SymbolName
  text : Phrase
  label_not_code : bytes = [] → ∀ name ∈ label, ¬ (name.text.toList.length % 2 = 0 ∧
    ∀ c ∈ name.text.toList, (Hex.digitValue? c).isSome = true)

inductive SourceItem where
  | continuation (line : Continuation)
  | code (line : CodeLine)

/-! ## Blocks -/

/-- A block of a listing with its items in order. -/
inductive PrintedBlock where
  | sections (names : List (Token × Phrase))
  | source (file : FileName) (items : List SourceItem)
  | symbolsByName (symbols : List (SymbolName × Token × UInt16))
  | symbolsByValue (names : List (UInt16 × SymbolName))

section Lines

variable (letters : Hex.LetterCase)

def printAddress (address : UInt16) : List Char :=
  Hex.fixed letters 4 address.toNat

def CodeLine.location (line : CodeLine) : List Char :=
  line.sectionCode.text.toList ++ ':' :: printAddress letters line.address

/-- The machine code and the label of a line, either of which may be missing. -/
def CodeLine.fields (line : CodeLine) : List Char :=
  line.bytes.flatMap (Hex.byte letters) ++
    ' ' :: (line.label.map fun name => name.text.toList).getD []

def SourceItem.line : SourceItem → List Char
  | .continuation line => line.text.toList
  | .code line =>
    line.location letters ++ ' ' :: line.fields letters ++ ':' :: ' ' :: line.text.text.toList

def PrintedBlock.title : PrintedBlock → String
  | .sections _ => "Sections"
  | .source _ _ => "Source"
  | .symbolsByName _ => "Symbols by name"
  | .symbolsByValue _ => "Symbols by value"

/-- What follows the colon of a header line. -/
def PrintedBlock.argument : PrintedBlock → List Char
  | .source file _ => ' ' :: '"' :: file.text.toList ++ ['"']
  | _ => []

def PrintedBlock.header (block : PrintedBlock) : List Char :=
  block.title.toList ++ ':' :: block.argument

/-- The lines between the header and the blank line. -/
def PrintedBlock.items : PrintedBlock → List (List Char)
  | .sections names => names.map fun (code, name) =>
    code.text.toList ++ ':' :: ' ' :: name.text.toList
  | .source _ items => items.map (SourceItem.line letters)
  | .symbolsByName symbols => symbols.map fun (name, kind, address) =>
    name.text.toList ++ ' ' :: kind.text.toList ++ ':' :: printAddress letters address
  | .symbolsByValue names => names.map fun (address, name) =>
    printAddress letters address ++ ' ' :: name.text.toList

def PrintedBlock.lines (block : PrintedBlock) : List (List Char) :=
  block.header :: block.items letters ++ [[]]

/-- The text of a listing, with its numbers in digits of the given letter case. -/
def printListing (blocks : List PrintedBlock) : String :=
  String.ofList ((blocks.flatMap (PrintedBlock.lines letters)).flatMap (· ++ ['\n']))

end Lines

/-! ## What the lines stand for -/

def SourceItem.entry (file : FileName) : SourceItem → Entry
  | .continuation line => .continuation file.text line.text
  | .code line =>
    .code file.text line.sectionCode.text line.address line.bytes
      (line.label.map fun name => name.text) line.text.text

def PrintedBlock.entries : PrintedBlock → List Entry
  | .sections names => names.map fun (code, name) => .sectionName code.text name.text
  | .source file items => items.map (SourceItem.entry file)
  | .symbolsByName symbols => symbols.map fun (name, kind, address) =>
    .symbol name.text kind.text address
  | .symbolsByValue names => names.map fun (address, name) => .nameAt address name.text

def entriesOf (blocks : List PrintedBlock) : List Entry :=
  blocks.flatMap PrintedBlock.entries

end RemoteDebugger.Listing
