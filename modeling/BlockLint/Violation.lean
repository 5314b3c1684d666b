import BlockLint.Order
import BlockLint.Source

/-!
Violations: what a rule found, and where.
-/
namespace BlockLint

/-- A rule's report. -/
structure Finding where
  position : Position
  extra : Option Text
deriving Repr, DecidableEq

structure Violation where
  ruleId : Text
  ruleName : Text
  description : Text
  position : Position
  offset : Option Nat
  extra : Option Text
deriving Repr, DecidableEq

namespace Violation

def display (v : Violation) : Text :=
  Text.ofNat v.position.line ++ ":" ++ Text.ofNat v.position.column ++ ": " ++ v.ruleId ++ ": " ++
    v.description ++ " (" ++ v.ruleName ++ ")" ++
    match v.extra with
    | some extra => " [" ++ extra ++ "]"
    | none => []

/-- Violations are ordered by line, then by column, then by rule. -/
def key (v : Violation) : SortKey :=
  [[v.position.line], [v.position.column], v.ruleId.map Char.toNat]

def sort (violations : List Violation) : List Violation :=
  sortByKey key violations

end Violation
end BlockLint
