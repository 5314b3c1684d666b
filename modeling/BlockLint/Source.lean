import BlockLint.Source.Tab

/-!
A document as numbered lines. The lines tile the document: each keeps its byte span, its text and
its ending. Block structure is read off the expanded text, and positions are told in columns of the
line as it was written.
-/
namespace BlockLint

def defaultTabWidth : Nat := 4

/-- The bytes from `start` up to and without `stop`. -/
structure Span where
  start : Nat
  stop : Nat
deriving Repr, DecidableEq

namespace Span

def length (span : Span) : Nat :=
  span.stop - span.start

def isEmpty (span : Span) : Bool :=
  span.length == 0

end Span

/-- A place in the document, both numbers from 1. -/
structure Position where
  line : Nat
  column : Nat
deriving Repr, DecidableEq

structure Line where
  number : Nat
  span : Span
  text : Text
  ending : Text
  tabWidth : Nat
deriving Repr, DecidableEq

namespace Line

/-- A line ends in a newline, in a carriage return and a newline, or in neither. -/
def splitEnding (raw : Text) : Text × Text :=
  match raw.reverse with
  | '\n' :: '\r' :: before => (before.reverse, ['\r', '\n'])
  | '\n' :: before => (before.reverse, ['\n'])
  | _ => (raw, [])

def ofRaw (number : Nat) (span : Span) (raw : Text) (tabWidth : Nat) : Line :=
  let (text, ending) := splitEnding raw
  { number, span, text, ending, tabWidth }

def expansion (line : Line) : Expansion :=
  expandTabs line.text line.tabWidth

def expanded (line : Line) : Text :=
  line.expansion.text

/-- The column past the last character. -/
def endColumn (line : Line) : Nat :=
  line.text.length + 1

/-- The column of a byte of the expanded text. Bytes past the end have the end column. -/
def column (line : Line) (offset : Nat) : Nat :=
  line.expansion.columns[offset]?.getD line.endColumn

def position (line : Line) (offset : Nat) : Position :=
  ⟨line.number, line.column offset⟩

def endPosition (line : Line) : Position :=
  ⟨line.number, line.endColumn⟩

/-- The byte of the document at which a column starts. Column 0 is the start of the line, and
columns past the end are the end of its text. -/
def documentOffset (line : Line) (column : Nat) : Nat :=
  line.span.start + Text.size (line.text.take (column - 1))

def hasTabs (line : Line) : Bool :=
  line.text.contains '\t'

end Line

structure Source where
  lines : List Line
deriving Repr, DecidableEq

namespace Source

/-- Puts a character in front of a text that is cut after every newline. -/
def prepend (c : Char) : List Text → List Text
  | [] => [[c]]
  | first :: rest => if c = '\n' then [c] :: first :: rest else (c :: first) :: rest

/-- The text cut after every newline. The empty text has no lines. -/
def rawLines (text : Text) : List Text :=
  text.foldr prepend []

/-- Numbers the lines and gives them their spans. -/
def layOut (tabWidth : Nat) : Nat → Nat → List Text → List Line
  | _, _, [] => []
  | number, start, raw :: rest =>
    let stop := start + Text.size raw
    Line.ofRaw number ⟨start, stop⟩ raw tabWidth :: layOut tabWidth (number + 1) stop rest

def ofText (text : Text) (tabWidth : Nat) : Source :=
  ⟨layOut tabWidth 1 0 (rawLines text)⟩

def length (source : Source) : Nat :=
  source.lines.length

def isEmpty (source : Source) : Bool :=
  source.lines.isEmpty

def line? (source : Source) : Nat → Option Line
  | 0 => none
  | n + 1 => source.lines[n]?

/-- The byte of the document at a position, if the document has that line. -/
def offset? (source : Source) (position : Position) : Option Nat :=
  (source.line? position.line).map (·.documentOffset position.column)

end Source
end BlockLint
