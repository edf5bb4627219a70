import RemoteDebugger.Listing.Basic

/-!
# Source windows

A window is a source line with the lines around it, up to a radius on either side and clipped at
both ends of the file.  There is no window where there is no such line.
-/

namespace RemoteDebugger.Listing

/-- A line of source and its index in the file, counted from zero. -/
structure SourceLine where
  index : Nat
  text : String
  deriving DecidableEq, Repr

/-- A source line together with its surroundings. -/
structure Window where
  before : List SourceLine
  center : SourceLine
  after : List SourceLine
  deriving DecidableEq, Repr

/-- All lines of a window, in file order. -/
def Window.lines (window : Window) : List SourceLine :=
  window.before ++ window.center :: window.after

/-- The radius of the windows shown at the prompt. -/
def defaultRadius : Nat := 2

/-- The source lines from index `start` up to, but not including, index `stop`. -/
def sourceLines (texts : Array String) (start stop : Nat) : List SourceLine :=
  ((texts.extract start stop).toList.zipIdx start).map fun line => ⟨line.2, line.1⟩

/-- The line at an index with up to `radius` lines on either side. -/
def Window.around? (texts : Array String) (index radius : Nat) : Option Window :=
  if h : index < texts.size then
    some {
      before := sourceLines texts (index - radius) index
      center := ⟨index, texts[index]⟩
      after := sourceLines texts (index + 1) (index + radius + 1) }
  else none

/-- The window around a line of a file, which is the first one unless a name is given. -/
def Document.window? (doc : Document) (file : Option String) (index radius : Nat) :
    Option Window := do
  let texts ← match file with
    | some file => doc.source? file
    | none => doc.sources.first?
  Window.around? texts index radius

/-- The window around the line that an address was assembled from. -/
def Document.windowAt? (doc : Document) (address : UInt16) (radius : Nat) : Option Window := do
  let origin ← doc.origin? address
  doc.window? (some origin.file) origin.line radius

/-! ## Text -/

/-- A number in decimal, filled up with spaces on the left. -/
def alignRight (width number : Nat) : String :=
  let digits := toString number
  String.ofList (List.replicate (width - digits.length) ' ') ++ digits

/-- The lines numbered from one, with the line in the center marked by an arrow. -/
def Window.render (window : Window) : String :=
  String.join (window.lines.map fun line =>
    let marker := if line.index = window.center.index then "=>" else "  "
    marker ++ " " ++ alignRight 5 (line.index + 1) ++ "  " ++ line.text ++ "\n")

end RemoteDebugger.Listing
