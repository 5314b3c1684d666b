import BlockLint.Plugin

/-!
No line holds a tab.
-/
namespace BlockLint.Rule

/-- The column of the first tab. -/
def firstTab? (line : Text) : Option Nat :=
  (line.findIdx? (· == '\t')).map (· + 1)

def hardTabs : Plugin where
  info := { id := "md010", aliases := ["no-hard-tabs"], description := "Hard tabs" }
  wantsLines := true
  State := Unit
  state := ()
  onLine _ number line :=
    ((), .ok ((firstTab? line).map fun column => ⟨⟨number, column⟩, none⟩).toList)

end BlockLint.Rule
