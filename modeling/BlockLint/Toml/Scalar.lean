import BlockLint.Toml.Value

/-!
Numbers, booleans, dates and times of TOML.
-/
namespace BlockLint.Toml

/-- The digits of a numeral. Single underscores may stand between digits. -/
def digits? (isDigit : Char → Bool) (text : Text) : Option Text :=
  let groups := Text.split '_' text
  if groups.all (fun group => !group.isEmpty && group.all isDigit) then some groups.flatten
  else none

def digitValue (c : Char) : Nat :=
  if c.isDigit then c.toNat - '0'.toNat else c.toLower.toNat - 'a'.toNat + 10

def valueOf (radix : Nat) (digits : Text) : Nat :=
  digits.foldl (fun n c => n * radix + digitValue c) 0

def isHexDigit (c : Char) : Bool :=
  c.isDigit || ('a' ≤ c && c ≤ 'f') || ('A' ≤ c && c ≤ 'F')

def isOctalDigit (c : Char) : Bool :=
  '0' ≤ c && c ≤ '7'

def isBinaryDigit (c : Char) : Bool :=
  c == '0' || c == '1'

/-- A numeral in base ten has no leading zero. -/
def decimal? (text : Text) : Option Text :=
  if text.head? = some '0' ∧ text.length ≠ 1 then none else digits? Char.isDigit text

/-- The sign, if there is one, and the rest. -/
def splitSign : Text → Option Char × Text
  | '+' :: rest => (some '+', rest)
  | '-' :: rest => (some '-', rest)
  | text => (none, text)

/-- Integers have at most 128 bits. -/
def inRange (n : Int) : Bool :=
  -(Nat.pow 2 127 : Nat) ≤ n && n < (Nat.pow 2 128 : Nat)

def magnitude? (signed : Bool) : Text → Option Nat
  | '0' :: 'x' :: rest => if signed then none else (digits? isHexDigit rest).map (valueOf 16)
  | '0' :: 'o' :: rest => if signed then none else (digits? isOctalDigit rest).map (valueOf 8)
  | '0' :: 'b' :: rest => if signed then none else (digits? isBinaryDigit rest).map (valueOf 2)
  | text => (decimal? text).map (valueOf 10)

def integer? (text : Text) : Option Int :=
  let (sign, body) := splitSign text
  match magnitude? sign.isSome body with
  | none => none
  | some n =>
    let value : Int := if sign = some '-' then -(n : Int) else n
    if inRange value then some value else none

/-- The least number that no float of 64 bits can stand for, halfway between the greatest and the
next power of two. -/
def floatBound : Nat :=
  Nat.pow 2 1024 - Nat.pow 2 970

/-- `mantissa * 10 ^ scale` is below the bound. Numbers far from it are told by their digits. -/
def isFinite (mantissa : Nat) (scale : Int) : Bool :=
  let magnitude := ((Nat.toDigits 10 mantissa).length : Int) + scale
  if mantissa = 0 || magnitude < 300 then true
  else if 310 < magnitude then false
  else mantissa * Nat.pow 10 scale.toNat < floatBound * Nat.pow 10 (-scale).toNat

def exponent? (text : Text) : Option Int :=
  let (sign, body) := splitSign text
  (digits? Char.isDigit body).map fun digits =>
    if sign = some '-' then -(valueOf 10 digits : Int) else valueOf 10 digits

/-- A number with digits after a point, with an exponent, or with both. -/
def isDecimalFloat (text : Text) : Bool :=
  let (mantissa, exponent) := Text.cut (fun c => c == 'e' || c == 'E') text
  let (whole, fraction) := Text.cut (· == '.') mantissa
  let scale := match exponent with
    | some written => exponent? written
    | none => some 0
  let places := match fraction with
    | some written => digits? Char.isDigit written
    | none => some []
  match decimal? whole, places, scale with
  | some before, some after, some scale =>
    (fraction.isSome || exponent.isSome) &&
      isFinite (valueOf 10 (before ++ after)) (scale - after.length)
  | _, _, _ => false

def isFloat (text : Text) : Bool :=
  let (_, body) := splitSign text
  body = "inf".toList || body = "nan".toList || isDecimalFloat body

/-- A number of exactly `count` digits, and what follows. -/
def fixed? (count : Nat) (text : Text) : Option (Nat × Text) :=
  let digits := text.take count
  if digits.length = count ∧ digits.all Char.isDigit then
    some (valueOf 10 digits, text.drop count)
  else none

/-- Takes one of the given characters. -/
def expect? (choices : List Char) : Text → Option Text
  | c :: rest => if choices.contains c then some rest else none
  | [] => none

def isLeapYear (year : Nat) : Bool :=
  year % 4 == 0 && (year % 100 != 0 || year % 400 == 0)

def daysIn (year month : Nat) : Nat :=
  if month = 2 then if isLeapYear year then 29 else 28
  else if [4, 6, 9, 11].contains month then 30
  else 31

/-- What follows a date. -/
def afterDate? (text : Text) : Option Text := do
  let (year, rest) ← fixed? 4 text
  let (month, rest) ← fixed? 2 (← expect? ['-'] rest)
  let (day, rest) ← fixed? 2 (← expect? ['-'] rest)
  if 1 ≤ month && month ≤ 12 && 1 ≤ day && day ≤ daysIn year month then some rest else none

/-- What follows a fraction of a second, if there is one. -/
def afterFraction? : Text → Option Text
  | '.' :: rest =>
    if (rest.takeWhile Char.isDigit).isEmpty then none else some (rest.dropWhile Char.isDigit)
  | text => some text

/-- What follows the seconds, which may be left out. -/
def afterSeconds? : Text → Option Text
  | ':' :: rest =>
    match fixed? 2 rest with
    | some (second, after) => if second ≤ 60 then afterFraction? after else none
    | none => none
  | text => some text

def afterHourMinute? (text : Text) : Option Text := do
  let (hour, rest) ← fixed? 2 text
  let (minute, rest) ← fixed? 2 (← expect? [':'] rest)
  if hour ≤ 23 && minute ≤ 59 then some rest else none

def afterTime? (text : Text) : Option Text := do
  afterSeconds? (← afterHourMinute? text)

/-- What follows a shift from universal time, which may be left out. -/
def afterOffset? : Text → Option Text
  | [] => some []
  | 'Z' :: rest => some rest
  | 'z' :: rest => some rest
  | text => do afterHourMinute? (← expect? ['+', '-'] text)

def isDate (text : Text) : Bool :=
  afterDate? text == some []

/-- A date, a time, or both with or without an offset. -/
def isDateTime (text : Text) : Bool :=
  isDate text || afterTime? text == some [] ||
    (do afterOffset? (← afterTime? (← expect? ['T', 't', ' '] (← afterDate? text)))) == some []

/-- The value that is written without quotes or brackets. -/
def scalar? (text : Text) : Option Value :=
  match integer? text with
  | some n => some (.integer n)
  | none =>
    if text = "true".toList then some (.boolean true)
    else if text = "false".toList then some (.boolean false)
    else if isFloat text then some (.float text)
    else if isDateTime text then some (.dateTime text)
    else none

def isScalarChar (c : Char) : Bool :=
  c.isAlphanum || ['+', '-', '_', '.', ':'].contains c

/-- A value without quotes or brackets, and what follows it. A space may divide a date from a
time. -/
def readScalar (text : Text) : Option (Value × Text) :=
  let word := text.takeWhile isScalarChar
  let rest := text.dropWhile isScalarChar
  let (word, rest) :=
    match rest with
    | ' ' :: c :: more =>
      if isDate word && c.isDigit then
        (word ++ ' ' :: (c :: more).takeWhile isScalarChar, (c :: more).dropWhile isScalarChar)
      else (word, rest)
    | _ => (word, rest)
  (scalar? word).map (·, rest)

end BlockLint.Toml
