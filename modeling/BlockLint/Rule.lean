import BlockLint.Registry
import BlockLint.Rule.AtxSpace
import BlockLint.Rule.HardTabs
import BlockLint.Rule.ListBlanks

/-!
The rules that every linter starts with.
-/
namespace BlockLint

def builtinRules : List Plugin :=
  [Rule.hardTabs, Rule.atxSpace, Rule.listBlanks]

theorem mem_builtinRules {plugin : Plugin} :
    plugin ∈ builtinRules ↔
      plugin = Rule.hardTabs ∨ plugin = Rule.atxSpace ∨ plugin = Rule.listBlanks := by
  simp [builtinRules]

/-- The built-in rules, all enabled. -/
def Registry.builtin : Registry :=
  ⟨builtinRules.map (⟨·, true⟩)⟩

end BlockLint
