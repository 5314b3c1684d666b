import BlockLint.Text

/-!
Strings of TOML. A string has four written forms: in double quotes with escapes or in single quotes
without, each on one line or, with the quote three times, on several.

The writer takes the first form that needs no escapes and falls back to double quotes.
-/
namespace BlockLint.Toml

inductive StringForm where
  | basic
  | literal
  | longBasic
  | longLiteral
deriving Repr, DecidableEq

def isControl (c : Char) : Bool :=
  c.toNat < 0x20 || c.toNat == 0x7f

/-- The character may stand in a string or a comment as it is. -/
def isPlain (c : Char) : Bool :=
  c == '\t' || !isControl c

namespace StringForm

/-- Only an escape can stand for the character. -/
def needsCode (c : Char) : Bool :=
  isControl c && c != '\t' && c != '\n'

/-- The text holds `quote` three times in a row. -/
def holdsTriple (quote : Char) : Text → Bool
  | a :: b :: c :: rest =>
    (a == quote && b == quote && c == quote) || holdsTriple quote (b :: c :: rest)
  | _ => false

/-- The form in which the text is written. -/
def choose (text : Text) : StringForm :=
  let coded := text.any needsCode
  let slashed := text.contains '\\'
  let broken := text.contains '\n'
  if !coded && !slashed && !broken && !text.contains '"' then .basic
  else if !coded && !broken && !text.contains '\'' then .literal
  else if !coded && !slashed && !holdsTriple '"' text then .longBasic
  else if !coded && !holdsTriple '\'' text then .longLiteral
  else if broken then .longBasic
  else .basic

def hexDigit (n : Nat) : Char :=
  (Nat.digitChar n).toUpper

/-- A character as it is written between double quotes, the quotes themselves aside. -/
def escapeChar (c : Char) : Text :=
  if c = '\x08' then ['\\', 'b']
  else if c = '\t' then ['\\', 't']
  else if c = '\n' then ['\\', 'n']
  else if c = '\x0c' then ['\\', 'f']
  else if c = '\r' then ['\\', 'r']
  else if c = '\\' then ['\\', '\\']
  else if isControl c then
    ['\\', 'u', '0', '0', hexDigit (c.toNat / 16), hexDigit (c.toNat % 16)]
  else [c]

/-- The text between double quotes. At most `limit` quotes in a row stay as they are, of which
`quotes` were just written. `long` keeps line breaks. -/
def escape (long : Bool) (limit quotes : Nat) : Text → Text
  | [] => []
  | c :: rest =>
    if c = '"' then
      if quotes < limit then c :: escape long limit (quotes + 1) rest
      else '\\' :: c :: escape long limit 0 rest
    else if long && c == '\n' then c :: escape long limit 0 rest
    else escapeChar c ++ escape long limit 0 rest

/-- A text of several lines starts on a line of its own. -/
def leadingBreak (text : Text) : Text :=
  if text.contains '\n' then ['\n'] else []

def write (form : StringForm) (text : Text) : Text :=
  match form with
  | .basic => ['"'] ++ escape false 0 0 text ++ ['"']
  | .literal => ['\''] ++ text ++ ['\'']
  | .longBasic => ['"', '"', '"'] ++ leadingBreak text ++ escape true 2 0 text ++ ['"', '"', '"']
  | .longLiteral => ['\'', '\'', '\''] ++ leadingBreak text ++ text ++ ['\'', '\'', '\'']

end StringForm

def writeString (text : Text) : Text :=
  (StringForm.choose text).write text

/-- Where a reader between double quotes stands: in plain text, after a backslash, in the digits
of a character's number, or in a break of the line that a backslash hides. -/
inductive Pending where
  | plain
  | slash
  | code (left value : Nat)
  | gap (crossed : Bool)
deriving Repr, DecidableEq

/-- The character that an escape with this letter stands for. -/
def escapedChar? : Char → Option Char
  | 'b' => some '\x08'
  | 't' => some '\t'
  | 'n' => some '\n'
  | 'f' => some '\x0c'
  | 'r' => some '\r'
  | 'e' => some '\x1b'
  | '"' => some '"'
  | '\\' => some '\\'
  | _ => none

/-- The number of digits of a character's number after this letter. -/
def codeLength? : Char → Option Nat
  | 'x' => some 2
  | 'u' => some 4
  | 'U' => some 8
  | _ => none

def hexValue? (c : Char) : Option Nat :=
  if c.isDigit then some (c.toNat - '0'.toNat)
  else if 'a' ≤ c && c ≤ 'f' then some (c.toNat - 'a'.toNat + 10)
  else if 'A' ≤ c && c ≤ 'F' then some (c.toNat - 'A'.toNat + 10)
  else none

def charOf? (value : Nat) : Option Char :=
  if value.isValidChar then some (Char.ofNat value) else none

/-- What a character of an escape leads to: where the reader stands then, and what it has read. -/
def decode (pending : Pending) (c : Char) : Option (Pending × Text) :=
  match pending with
  | .slash =>
    match escapedChar? c, codeLength? c with
    | some d, _ => some (.plain, [d])
    | none, some length => some (.code length 0, [])
    | none, none => none
  | .code left value =>
    match hexValue? c with
    | none => none
    | some digit =>
      if left ≤ 1 then (charOf? (value * 16 + digit)).map fun d => (.plain, [d])
      else some (.code (left - 1) (value * 16 + digit), [])
  | .plain | .gap _ => none

/-- Puts characters in front of a text that was read. -/
def prepend (start : Text) : Option (Text × Text) → Option (Text × Text) :=
  Option.map fun (text, after) => (start ++ text, after)

/-- The rest of a string in double quotes on one line, and what follows it. -/
def readBasic (pending : Pending) : Text → Option (Text × Text)
  | [] => none
  | c :: rest =>
    if pending = .plain then
      if c = '"' then some ([], rest)
      else if c = '\\' then readBasic .slash rest
      else if isPlain c then prepend [c] (readBasic .plain rest)
      else none
    else
      match decode pending c with
      | none => none
      | some (next, start) => prepend start (readBasic next rest)

/-- The end of a long string. Up to two quotes before the last three belong to the text. -/
def closeLong (quote : Char) (after : Text) : Text × Text :=
  let extra := (after.takeWhile (· == quote)).take 2
  (extra, after.drop extra.length)

/-- A line ends here: at a line feed, or at a carriage return before one. -/
def isBreak (c : Char) (rest : Text) : Bool :=
  c == '\n' || (c == '\r' && rest.head? == some '\n')

def isBlankChar (c : Char) : Bool :=
  c == ' ' || c == '\t'

/-- A hidden break ends at the first character that is neither blank nor a break. -/
def settle (pending : Pending) (c : Char) (rest : Text) : Pending :=
  if pending = .gap true && !isBlankChar c && !isBreak c rest then .plain else pending

/-- The rest of a long string in double quotes, and what follows it. -/
def readLongBasic (pending : Pending) : Text → Option (Text × Text)
  | [] => none
  | c :: rest =>
    match settle pending c rest with
    | .plain =>
      if c = '"' then
        match rest with
        | '"' :: '"' :: after => some (closeLong '"' after)
        | _ => prepend [c] (readLongBasic .plain rest)
      else if c = '\\' then readLongBasic .slash rest
      else if isPlain c || isBreak c rest then prepend [c] (readLongBasic .plain rest)
      else none
    | .gap crossed =>
      if isBlankChar c then readLongBasic (.gap crossed) rest
      else if isBreak c rest then readLongBasic (.gap (crossed || c == '\n')) rest
      else none
    | other =>
      if other = .slash && (isBlankChar c || isBreak c rest) then
        readLongBasic (.gap (c == '\n')) rest
      else
        match decode other c with
        | none => none
        | some (next, start) => prepend start (readLongBasic next rest)

/-- The rest of a string in single quotes on one line, and what follows it. -/
def readLiteral : Text → Option (Text × Text)
  | [] => none
  | c :: rest =>
    if c = '\'' then some ([], rest)
    else if isPlain c then prepend [c] (readLiteral rest)
    else none

/-- The rest of a long string in single quotes, and what follows it. -/
def readLongLiteral : Text → Option (Text × Text)
  | [] => none
  | c :: rest =>
    if c = '\'' then
      match rest with
      | '\'' :: '\'' :: after => some (closeLong '\'' after)
      | _ => prepend [c] (readLongLiteral rest)
    else if isPlain c || isBreak c rest then prepend [c] (readLongLiteral rest)
    else none

/-- A line break right after the quotes of a long string is not part of it. -/
def dropBreak : Text → Text
  | '\n' :: rest => rest
  | '\r' :: '\n' :: rest => rest
  | text => text

/-- A string on one line, and what follows it. -/
def readShortString : Text → Option (Text × Text)
  | '"' :: rest => readBasic .plain rest
  | '\'' :: rest => readLiteral rest
  | _ => none

/-- A string in any form, and what follows it. -/
def readString : Text → Option (Text × Text)
  | '"' :: '"' :: '"' :: rest => readLongBasic .plain (dropBreak rest)
  | '\'' :: '\'' :: '\'' :: rest => readLongLiteral (dropBreak rest)
  | text => readShortString text

end BlockLint.Toml
