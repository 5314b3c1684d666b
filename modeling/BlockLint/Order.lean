/-!
Order of lists at the first place where they differ.
-/
namespace BlockLint

/-- At the first place where two lists differ, `le` decides. A list comes before those that go on
where it ends. -/
def lexicographic {α : Type} [DecidableEq α] (le : α → α → Bool) : List α → List α → Bool
  | [], _ => true
  | _ :: _, [] => false
  | a :: as, b :: bs => if a = b then lexicographic le as bs else le a b

/-- What things are sorted by: rows of numbers, compared row by row. -/
abbrev SortKey := List (List Nat)

def SortKey.le : SortKey → SortKey → Bool :=
  lexicographic (lexicographic Nat.ble)

/-- In the order of the keys, and things with the same key as they stood. -/
def sortByKey {α : Type} (key : α → SortKey) (items : List α) : List α :=
  items.mergeSort fun a b => SortKey.le (key a) (key b)

end BlockLint
