import RemoteDebugger.Bytes
import RemoteDebugger.Listing.Table
import Std.Data.ExtTreeMap

/-!
# Listings

An assembler listing names the sections of a program, gives the source lines of its files, and
relates addresses to source lines and symbols.  A `Document` is built from `Entry` values, one for
each line of the listing that is neither blank nor a header, by `Document.add`.
-/

namespace RemoteDebugger.Listing

/-! ## Malformed listings -/

/-- What is wrong with a line. -/
inductive Defect where
  | unknownSection (name : String)
  | missingSeparator (separator : Char)
  | invalidHex (text : String)
  deriving DecidableEq, Repr

/-- The wording of a defect. -/
def Defect.message : Defect → String
  | .unknownSection name => s!"unknown section `{name}`"
  | .missingSeparator separator => s!"missing `{separator}` separator"
  | .invalidHex text => s!"invalid hex value `{text}`"

/-- The first defect of a listing and the number of its line, counted from one. -/
structure FormatError where
  line : Nat
  defect : Defect
  deriving DecidableEq, Repr

/-- The wording of a format error. -/
def FormatError.message (e : FormatError) : String :=
  s!"listing line {e.line}: {e.defect.message}"

/-! ## Documents -/

/-- Where an address was assembled from: a line of a file, counted from zero, and what the listing
says of the code there. -/
structure Origin where
  file : String
  line : Nat
  sectionCode : String
  bytes : Bytes
  label : Option String
  deriving DecidableEq, Repr

/-- The value of a symbol and its type as the assembler writes it. -/
structure Symbol where
  address : UInt16
  kind : String
  deriving DecidableEq, Repr

/-- One line of a listing that is neither blank nor a header. -/
inductive Entry where
  /-- The name of a section. -/
  | sectionName (code name : String)
  /-- A source line that continues a statement and has no address. -/
  | continuation (file text : String)
  /-- A source line and the code assembled from it. -/
  | code (file sectionCode : String) (address : UInt16) (bytes : Bytes) (label : Option String)
      (text : String)
  /-- A symbol of the table that is sorted by name. -/
  | symbol (name kind : String) (address : UInt16)
  /-- A symbol of the table that is sorted by value. -/
  | nameAt (address : UInt16) (name : String)
  deriving DecidableEq, Repr

/-- A parsed listing.  Sections and files come in the order of their latest lines. -/
structure Document where
  sections : Table String := {}
  sources : Table (Array String) := {}
  origins : Std.ExtTreeMap UInt16 Origin := {}
  symbols : Std.ExtTreeMap String Symbol := {}
  names : Std.ExtTreeMap UInt16 String := {}

namespace Document

/-! ### Queries -/

/-- The lines of a file. -/
def source? (doc : Document) (file : String) : Option (Array String) :=
  doc.sources.find? file

/-- The names of all files, in the order of their latest lines. -/
def files (doc : Document) : List String :=
  doc.sources.names

/-- The symbol of a name. -/
def symbol? (doc : Document) (name : String) : Option Symbol :=
  doc.symbols[name]?

/-- The name that the table sorted by value gives to an address. -/
def nameAt? (doc : Document) (address : UInt16) : Option String :=
  doc.names[address]?

/-- Where an address was assembled from. -/
def origin? (doc : Document) (address : UInt16) : Option Origin :=
  doc.origins[address]?

/-- The number of addresses with a known source line. -/
def size (doc : Document) : Nat :=
  doc.origins.size

/-- Whether no address has a known source line. -/
def isEmpty (doc : Document) : Bool :=
  doc.origins.isEmpty

/-- The number of source lines of a file so far. -/
def lineCount (doc : Document) (file : String) : Nat :=
  ((doc.source? file).getD #[]).size

/-! ### Construction -/

/-- The source lines of all files with one more line. -/
def addLine (sources : Table (Array String)) (file text : String) : Table (Array String) :=
  sources.update file fun lines => (lines.getD #[]).push text

/-- Add an entry.  Later entries replace earlier ones of the same section code, address or name;
source lines are kept, behind those of their file. -/
def add (doc : Document) : Entry → Document
  | .sectionName code name => { doc with sections := doc.sections.update code fun _ => name }
  | .continuation file text => { doc with sources := addLine doc.sources file text }
  | .code file sectionCode address bytes label text =>
    let line := doc.lineCount file
    { doc with
      sources := addLine doc.sources file text
      origins := doc.origins.insert address { file, line, sectionCode, bytes, label } }
  | .symbol name kind address =>
    { doc with symbols := doc.symbols.insert name { address, kind } }
  | .nameAt address name => { doc with names := doc.names.insert address name }

end Document

end RemoteDebugger.Listing
