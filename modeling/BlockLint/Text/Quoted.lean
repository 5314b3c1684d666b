import BlockLint.Text.Printable

/-!
Text between double quotes, with a backslash sequence for what cannot stand there as itself.
-/
namespace BlockLint.Text

/-- How a character is written between quotes. -/
def quoteChar (c : Char) : Text :=
  if c = Char.ofNat 0 then "\\0"
  else if c = '\t' then "\\t"
  else if c = '\r' then "\\r"
  else if c = '\n' then "\\n"
  else if c = '\\' then "\\\\"
  else if c = '"' then "\\\""
  else if isPrintable c then [c]
  else "\\u\x7b" ++ Nat.toDigits 16 c.toNat ++ "\x7d"

def quoted (text : Text) : Text :=
  ['"'] ++ text.flatMap quoteChar ++ ['"']

end BlockLint.Text
