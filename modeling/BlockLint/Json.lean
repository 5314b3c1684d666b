import BlockLint.Linter

/-!
Tokens and reports as JSON.
-/
namespace BlockLint

inductive Json where
  | null
  | boolean (b : Bool)
  | number (n : Nat)
  | string (text : Text)
  | array (items : List Json)
  | object (fields : List (Text × Json))

namespace Json

/-- A character as it is written in a string. -/
def escapeChar (c : Char) : Text :=
  if c = '"' then ['\\', '"']
  else if c = '\\' then ['\\', '\\']
  else if c = '\x08' then ['\\', 'b']
  else if c = '\t' then ['\\', 't']
  else if c = '\n' then ['\\', 'n']
  else if c = '\x0c' then ['\\', 'f']
  else if c = '\r' then ['\\', 'r']
  else if c.toNat < 0x20 then
    ['\\', 'u', '0', '0', Nat.digitChar (c.toNat / 16), Nat.digitChar (c.toNat % 16)]
  else [c]

def writeString (text : Text) : Text :=
  ['"'] ++ text.flatMap escapeChar ++ ['"']

/-- A new line at the given depth. -/
def newLine (depth : Nat) : Text :=
  '\n' :: List.replicate (2 * depth) ' '

mutual

/-- The value on several lines, each level two spaces further in. -/
def pretty (depth : Nat) : Json → Text
  | .null => "null"
  | .boolean b => if b then "true" else "false"
  | .number n => Text.ofNat n
  | .string text => writeString text
  | .array [] => "[]"
  | .array (item :: items) =>
    ['['] ++ newLine (depth + 1) ++ pretty (depth + 1) item ++ prettyItems (depth + 1) items ++
      newLine depth ++ [']']
  | .object [] => "\x7b\x7d"
  | .object ((key, value) :: fields) =>
    ['{'] ++ newLine (depth + 1) ++ writeString key ++ ": " ++ pretty (depth + 1) value ++
      prettyFields (depth + 1) fields ++ newLine depth ++ ['}']

/-- The items after the first. -/
def prettyItems (depth : Nat) : List Json → Text
  | [] => []
  | item :: items => [','] ++ newLine depth ++ pretty depth item ++ prettyItems depth items

/-- The fields after the first. -/
def prettyFields (depth : Nat) : List (Text × Json) → Text
  | [] => []
  | (key, value) :: fields =>
    [','] ++ newLine depth ++ writeString key ++ ": " ++ pretty depth value ++
      prettyFields depth fields

end

def ofOption {α : Type} (json : α → Json) : Option α → Json
  | some a => json a
  | none => .null

end Json

def ContainerKind.json : ContainerKind → Json
  | .blockQuote => .object [("type", .string "block_quote")]
  | .list (.ordered start delimiter) =>
    .object [("type", .string "ordered_list"), ("start", .number start),
      ("delimiter", .string [delimiter])]
  | .list (.bulleted bullet) =>
    .object [("type", .string "unordered_list"), ("bullet", .string [bullet])]

def LeafKind.jsonFields : LeafKind → List (Text × Json)
  | .paragraph => [("type", .string "paragraph")]
  | .atxHeading level => [("type", .string "atx_heading"), ("level", .number level)]
  | .setextHeading level => [("type", .string "setext_heading"), ("level", .number level)]
  | .thematicBreak => [("type", .string "thematic_break")]
  | .indentedCode => [("type", .string "indented_code")]
  | .fencedCode fence length info =>
    [("type", .string "fenced_code"), ("fence", .string [fence]), ("length", .number length),
      ("info", .string info)]

def LeafKind.json (leaf : LeafKind) : Json :=
  .object leaf.jsonFields

def ItemGeometry.json (item : ItemGeometry) : Json :=
  .object [("marker_column", .number item.markerColumn),
    ("content_column", .number item.contentColumn),
    ("content_pending", .boolean item.contentPending)]

/-- The fields of a leaf stand beside the name of its start token. -/
def TokenKind.json : TokenKind → Json
  | .containerStart container item =>
    .object [("token", .string "container_start"), ("container", container.json),
      ("item", Json.ofOption ItemGeometry.json item)]
  | .newListItem item number =>
    .object [("token", .string "new_list_item"), ("item", item.json),
      ("number", Json.ofOption .number number)]
  | .containerEnd container natural =>
    .object [("token", .string "container_end"), ("container", container.json),
      ("matched_naturally", .boolean natural)]
  | .leafStart leaf => .object (("token", .string "leaf_start") :: leaf.jsonFields)
  | .leafContent text isLazy =>
    .object [("token", .string "leaf_content"), ("text", .string text), ("lazy", .boolean isLazy)]
  | .leafEnd leaf natural =>
    .object [("token", .string "leaf_end"), ("leaf", leaf.json),
      ("matched_naturally", .boolean natural)]
  | .blankLine => .object [("token", .string "blank_line")]

def Token.json (token : Token) : Json :=
  .object [("kind", token.kind.json), ("line_number", .number token.position.line),
    ("column_number", .number token.position.column), ("prefix", .string token.lead),
    ("literal", .string token.literal)]

def Violation.json (v : Violation) : Json :=
  .object [("rule_id", .string v.ruleId), ("rule_name", .string v.ruleName),
    ("description", .string v.description), ("line_number", .number v.position.line),
    ("column_number", .number v.position.column), ("offset", Json.ofOption .number v.offset),
    ("extra", Json.ofOption .string v.extra)]

def FileReport.json (report : FileReport) : Json :=
  .object [("path", .string report.path),
    ("violations", .array (report.violations.map Violation.json))]

end BlockLint
