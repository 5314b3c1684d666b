import BlockLint.Text

/-!
HTML as a sequence of pieces: tags and text. Text is escaped where it is written, so every angle
bracket of the output belongs to a tag.
-/
namespace BlockLint.Html

inductive Element where
  | blockQuote
  | orderedList (start : Nat)
  | bulletList
  | item
  | paragraph
  | heading (level : Nat)
  | preformatted
  | code (language : Option Text)
deriving Repr, DecidableEq

inductive Piece where
  | opening (element : Element)
  | closing (element : Element)
  | thematicBreak
  | text (content : Text)
deriving Repr, DecidableEq

def escapeChar (c : Char) : Text :=
  if c = '&' then "&amp;" else if c = '<' then "&lt;" else if c = '>' then "&gt;" else [c]

def escapeText (text : Text) : Text :=
  text.flatMap escapeChar

/-- Inside double quotes the quote is escaped as well. -/
def escapeAttribute (value : Text) : Text :=
  value.flatMap fun c => if c = '"' then "&quot;" else escapeChar c

namespace Element

def name : Element → Text
  | .blockQuote => "blockquote"
  | .orderedList _ => "ol"
  | .bulletList => "ul"
  | .item => "li"
  | .paragraph => "p"
  | .heading level => "h" ++ Text.ofNat level
  | .preformatted => "pre"
  | .code _ => "code"

/-- A list tells its first number unless that is 1, and code tells its language. -/
def attributes : Element → Text
  | .orderedList start => if start = 1 then [] else " start=\"" ++ Text.ofNat start ++ "\""
  | .code (some language) => " class=\"language-" ++ escapeAttribute language ++ "\""
  | _ => []

end Element

namespace Piece

def write : Piece → Text
  | .opening element => "<" ++ element.name ++ element.attributes ++ ">"
  | .closing element => "</" ++ element.name ++ ">"
  | .thematicBreak => "<hr />"
  | .text content => escapeText content

/-- The pieces inside an element. -/
def enclose (element : Element) (pieces : List Piece) : List Piece :=
  .opening element :: pieces ++ [.closing element]

end Piece

def write (pieces : List Piece) : Text :=
  pieces.flatMap Piece.write

end BlockLint.Html
