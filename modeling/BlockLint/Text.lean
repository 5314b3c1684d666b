/-!
Text as a list of characters, measured in the bytes of its UTF-8 encoding.

Places in a text are byte offsets. `seek` gives what stands at or after a place, and
`IsBoundary` says that the place lies between two characters.
-/
namespace BlockLint

abbrev Text := List Char

instance : Coe String Text := ⟨String.toList⟩

namespace Text

/-- The number of bytes of the UTF-8 encoding. -/
def size : Text → Nat
  | [] => 0
  | c :: rest => c.utf8Size + size rest

/-- The decimal numeral of `n`. -/
def ofNat (n : Nat) : Text :=
  Nat.toDigits 10 n

/-- The value of decimal digits. -/
def valueOf (digits : Text) : Nat :=
  digits.foldl (fun value digit => 10 * value + (digit.toNat - '0'.toNat)) 0

/-- The number of leading spaces. Only U+0020 is a space here. -/
def spaces (text : Text) : Nat :=
  (text.takeWhile (· == ' ')).length

def dropSpaces (text : Text) : Text :=
  text.dropWhile (· == ' ')

/-- Nothing but spaces. -/
def isBlank (text : Text) : Bool :=
  text.all (· == ' ')

/-- The text without its longest tail of characters that satisfy `p`. -/
def dropTail (p : Char → Bool) (text : Text) : Text :=
  (text.reverse.dropWhile p).reverse

/-- The text from the character that holds byte `offset`, so a place inside a character
falls back to that character's start. Nothing is left past the end. -/
def seek : Text → Nat → Text
  | [], _ => []
  | c :: cs, offset => if offset < c.utf8Size then c :: cs else seek cs (offset - c.utf8Size)

/-- Byte `offset` is the start of a character or the end of the text. -/
def isBoundary : Text → Nat → Bool
  | [], offset => offset == 0
  | c :: cs, offset =>
    offset == 0 || (c.utf8Size ≤ offset && isBoundary cs (offset - c.utf8Size))

/-- The texts one after another with `separator` between neighbours. -/
def join (separator : Text) (texts : List Text) : Text :=
  List.intercalate separator texts

/-- Puts a character in front of a text that is cut at every `separator`. -/
def prependPart (separator c : Char) : List Text → List Text
  | [] => [[c]]
  | part :: rest => if c = separator then [] :: part :: rest else (c :: part) :: rest

/-- The parts between the separators, the first and the last included. -/
def split (separator : Char) (text : Text) : List Text :=
  text.foldr (prependPart separator) [[]]

/-- The text before the first character that satisfies `p`, and the text after it if there is
one. -/
def cut (p : Char → Bool) (text : Text) : Text × Option Text :=
  match text.dropWhile (!p ·) with
  | [] => (text, none)
  | _ :: after => (text.takeWhile (!p ·), some after)

/-- ASCII letters in upper case, all else as it is. -/
def upperAscii (text : Text) : Text :=
  text.map Char.toUpper

/-- Equality up to the case of ASCII letters. -/
def sameIgnoringCase (left right : Text) : Bool :=
  left.map Char.toLower == right.map Char.toLower

/-- The character lies in one of the ranges, ends included. -/
def inRanges (ranges : List (Nat × Nat)) (c : Char) : Bool :=
  ranges.any fun (low, high) => low ≤ c.toNat && c.toNat ≤ high

end Text

@[simp] theorem Text.size_nil : Text.size [] = 0 := rfl

@[simp] theorem Text.size_cons (c : Char) (text : Text) :
    Text.size (c :: text) = c.utf8Size + Text.size text := rfl

@[simp] theorem Text.size_append (left right : Text) :
    Text.size (left ++ right) = Text.size left + Text.size right := by
  induction left with
  | nil => simp
  | cons c rest ih => simp [ih, Nat.add_assoc]

end BlockLint
