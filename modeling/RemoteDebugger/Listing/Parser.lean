import RemoteDebugger.Cut
import RemoteDebugger.Listing.Basic
import RemoteDebugger.Number.Numeral
import RemoteDebugger.Text.Whitespace

/-!
# Reading listings

A listing is a sequence of blocks, each opened by a header line `Name: argument` and closed by a
blank line.  Trailing whitespace of a line does not count.  `Block.entry` reads one line of a
block, and `Document.parse` all lines in one pass, up to the first one that is malformed.

* In a block of sections: `<code>: <name>`.
* In a block of source: text that starts with a space, or
  `<section>:<address> <machine code> <label>: <text>`, where code and label may be missing.
* In a block of symbols by name: `<name> <kind>:<address>`.
* In a block of symbols by value: `<address> <name>`.
-/

namespace RemoteDebugger.Listing

open RemoteDebugger.Text

/-- The kinds of block. -/
inductive Block where
  | sections
  | source (file : String)
  | symbolsByName
  | symbolsByValue
  deriving DecidableEq, Repr

/-! ## Parts of a line -/

/-- What precedes and what follows the first separator. -/
def separate (separator : Char) (text : List Char) : Except Defect (List Char × List Char) :=
  match cut? (· == separator) text with
  | some parts => .ok parts
  | none => .error (.missingSeparator separator)

/-- An address in hexadecimal. -/
def readAddress (text : List Char) : Except Defect UInt16 :=
  match Numeral.readWord 16 text with
  | .ok address => .ok address
  | .error _ => .error (.invalidHex (String.ofList text))

/-- The text inside a pair of quotation marks around it, if there is one. -/
def unquote (text : List Char) : List Char :=
  match text with
  | '"' :: rest => if rest.getLast? = some '"' then rest.dropLast else text
  | _ => text

/-- The machine code and the label between an address and its source text.  A single word that is
no byte string is the label of a line without code; of several words the first is the code and the
last the label. -/
def readFields (fields : List Char) : Except Defect (Bytes × Option String) :=
  match words fields with
  | [] => .ok ([], none)
  | [word] =>
    match Hex.decode word with
    | .ok bytes => .ok (bytes, none)
    | .error _ => .ok ([], some (String.ofList word))
  | code :: next :: more =>
    match Hex.decode code with
    | .ok bytes => .ok (bytes, some (String.ofList ((next :: more).getLast (by simp))))
    | .error _ => .error (.invalidHex (String.ofList code))

/-! ## Lines -/

/-- The block that a header line opens. -/
def Block.ofHeader (line : List Char) : Except Defect Block :=
  let (name, argument) := (cut? (· == ':') line).getD (line, [])
  match String.ofList name with
  | "Sections" => .ok .sections
  | "Source" => .ok (.source (String.ofList (unquote (trim argument))))
  | "Symbols by name" => .ok .symbolsByName
  | "Symbols by value" => .ok .symbolsByValue
  | other => .error (.unknownSection other)

/-- A source line with an address. -/
def readCode (file : String) (line : List Char) : Except Defect Entry := do
  let (location, rest) := (cut? isBlank line).getD (line, [])
  let (sectionCode, address) ← separate ':' location
  let address ← readAddress address
  let (fields, text) ← separate ':' rest
  let (bytes, label) ← readFields fields
  return .code file (String.ofList sectionCode) address bytes label (String.ofList (trimStart text))

/-- One line of a block. -/
def Block.entry (block : Block) (line : List Char) : Except Defect Entry :=
  match block with
  | .sections => do
    let (code, name) ← separate ':' line
    return .sectionName (String.ofList (trim code)) (String.ofList (trim name))
  | .source file =>
    if line.head? = some ' ' then .ok (.continuation file (String.ofList line))
    else readCode file line
  | .symbolsByName => do
    let (name, rest) ← separate ' ' line
    let (kind, value) ← separate ':' (trim rest)
    let address ← readAddress (trim value)
    return .symbol (String.ofList name) (String.ofList kind) address
  | .symbolsByValue => do
    let (value, name) ← separate ' ' line
    let address ← readAddress value
    return .nameAt address (String.ofList (trim name))

/-! ## Documents -/

/-- The document read so far, the block that is open, and the number of lines read. -/
structure Reading where
  doc : Document := {}
  block : Option Block := none
  lines : Nat := 0

/-- Read one line, whose trailing whitespace does not count. -/
def Reading.line (reading : Reading) (line : List Char) : Except FormatError Reading :=
  let number := reading.lines + 1
  let line := trimEnd line
  if line.isEmpty then .ok { reading with block := none, lines := number }
  else match reading.block with
    | none =>
      match Block.ofHeader line with
      | .ok block => .ok { reading with block := some block, lines := number }
      | .error defect => .error { line := number, defect }
    | some block =>
      match block.entry line with
      | .ok entry => .ok { reading with doc := reading.doc.add entry, lines := number }
      | .error defect => .error { line := number, defect }

/-- Read a listing. -/
def Document.parse (text : String) : Except FormatError Document :=
  (·.doc) <$> (text.toList.splitOn '\n').foldlM Reading.line {}

end RemoteDebugger.Listing
