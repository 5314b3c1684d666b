import BlockLint.Proofs.BlankLines
import BlockLint.Proofs.ListSeparation

/-!
No list goes unreported that touches what stands around it. Where the line above a list, or the last
line of a list before another block, holds text, the rule finds no blank line there, since a blank
line stands last on its own line.

A line of markers alone counts as a blank one. A list that comes first in its container has nothing
before it to be set off from.
-/
namespace BlockLint

/-- No blank line stands on the line: it is not made of markers alone. -/
def Filled (tokens : List Token) (line : Nat) : Prop :=
  ∀ token ∈ tokens, token.kind = .blankLine → token.position.line ≠ line

instance (tokens : List Token) (line : Nat) : Decidable (Filled tokens line) :=
  inferInstanceAs (Decidable (∀ token ∈ tokens, _))

structure Token.RightAbove (token next : Token) : Prop where
  shows : token.kind.isMarkerOrText = true
  above : token.position.line + 1 = next.position.line

theorem Position.line_le {earlier later : Position} (le : earlier ≤ later) :
    earlier.line ≤ later.line := by
  rcases le with before | ⟨same, _⟩
  · exact Nat.le_of_lt before
  · exact Nat.le_of_eq same

theorem tokenize_lines (text : Text) (tabWidth : Nat) :
    (tokenize text tabWidth).Pairwise fun earlier later =>
      earlier.position.line ≤ later.position.line := by
  obtain ⟨low, high, ascends⟩ := tokenize_ascends text tabWidth
  exact ascends.pairwise.imp Position.line_le

theorem nearest?_split {before : List Token} {token : Token} (found : nearest? before = some token) :
    ∃ earlier ends, before = earlier ++ token :: ends ∧ token.isEnd = false ∧
      ∀ ended ∈ ends, ended.isEnd = true := by
  induction before using List.reverseRecOn with
  | nil => cases found
  | append_singleton before last ih =>
    rw [nearest?_concat] at found
    split at found
    · rename_i isEnd
      obtain ⟨earlier, ends, rfl, notEnd, others⟩ := ih found
      refine ⟨earlier, ends ++ [last], by simp, notEnd, ?_⟩
      intro ended member
      rcases List.mem_append.mp member with old | new
      · exact others ended old
      · cases List.mem_singleton.mp new
        exact isEnd
    · rename_i notEnd
      cases Option.some.inj found
      exact ⟨before, [], rfl, by simpa using notEnd, by simp⟩

theorem exists_nearest {before : List Token} {token : Token} (member : token ∈ before)
    (notEnd : token.isEnd = false) : ∃ nearest, nearest? before = some nearest := by
  have some : shown before ≠ [] :=
    List.ne_nil_of_mem (List.mem_filter.mpr ⟨member, by simp [notEnd]⟩)
  exact ⟨_, List.getLast?_eq_some_getLast some⟩

theorem Token.not_isEnd_of_isMarkerOrText {token : Token}
    (shows : token.kind.isMarkerOrText = true) : token.isEnd = false := by
  unfold Token.isEnd
  split
  · rename_i ends
    simp [ends, TokenKind.isMarkerOrText, TokenKind.isContent] at shows
  · rename_i ends
    simp [ends, TokenKind.isMarkerOrText, TokenKind.isContent] at shows
  · rfl

section
variable {text : Text} {tabWidth : Nat} {before after : List Token} {next token nearest : Token}

theorem nearest_not_blank (split : tokenize text tabWidth = before ++ next :: after)
    (notEnd : next.isEnd = false) (member : token ∈ before)
    (rightAbove : token.RightAbove next)
    (filled : Filled (tokenize text tabWidth) token.position.line)
    (found : nearest? before = some nearest) : nearest.kind ≠ .blankLine := by
  intro blank
  have above := rightAbove.above
  have isShown := Token.not_isEnd_of_isMarkerOrText rightAbove.shows
  obtain ⟨earlier, ends, rfl, nearestShown, onlyEnds⟩ := nearest?_split found
  have lines := tokenize_lines text tabWidth
  have blanks := tokenize_leavesBlank text tabWidth
  have isNearest : nearest ∈ tokenize text tabWidth := by simp [split]
  rw [split, List.pairwise_append] at lines blanks
  have notAbove : token.position.line ≤ nearest.position.line := by
    rcases List.mem_append.mp member with early | late
    · exact (List.pairwise_append.mp lines.1).2.2 token early nearest List.mem_cons_self
    · rcases List.mem_cons.mp late with rfl | isEnd
      · exact Nat.le_refl _
      · rw [onlyEnds token isEnd] at isShown
        cases isShown
  have below : nearest.position.line < next.position.line :=
    blanks.2.2 nearest (by simp) next List.mem_cons_self nearestShown notEnd blank
  exact filled nearest isNearest blank (by omega)

/-- The last token that ends no block starts a container only where it is the last of all. -/
theorem nearest_not_start (split : tokenize text tabWidth = before ++ next :: after)
    (found : nearest? before = some nearest)
    (notFirst : ∀ last ∈ before.getLast?, last.opened? = none) :
    nearest.opened? = none := by
  obtain ⟨earlier, ends, rfl, _, onlyEnds⟩ := nearest?_split found
  have chain := tokenize_mayFill text tabWidth
  rw [split] at chain
  cases ends with
  | nil => exact notFirst nearest (by simp)
  | cons ended rest =>
    by_contra starts
    rw [List.append_assoc] at chain
    have fits := (List.isChain_cons_cons.mp (List.isChain_append.mp chain).2.1).1
      (Option.isSome_iff_ne_none.mpr starts)
    rw [onlyEnds ended List.mem_cons_self] at fits
    cases fits

end

theorem TokenKind.isContent_of_shown {token : Token} (notEnd : token.isEnd = false)
    (filled : token.kind ≠ .blankLine) (noStart : token.opened? = none) :
    token.kind.isContent = true := by
  obtain ⟨kind, position, lead, literal⟩ := token
  cases kind with
  | containerStart => cases noStart
  | containerEnd => cases notEnd
  | leafEnd => cases notEnd
  | blankLine => exact absurd rfl filled
  | _ => rfl

section
variable {text : Text} {tabWidth : Nat} {list : ListPlace} {token : Token}

theorem earlyFinding_mem (member : list ∈ outermostLists (tokenize text tabWidth))
    (isBefore : token ∈ list.before) (rightAbove : token.RightAbove list.start)
    (filled : Filled (tokenize text tabWidth) token.position.line)
    (notFirst : ∀ last ∈ list.before.getLast?, last.opened? = none) :
    list.earlyFinding ∈ list.early := by
  obtain ⟨split, starts, _⟩ := mem_outermostLists.mp member
  obtain ⟨nearest, found⟩ := exists_nearest isBefore
    (Token.not_isEnd_of_isMarkerOrText rightAbove.shows)
  have startShown : list.start.isEnd = false := by
    unfold Token.startsList Token.opened? at starts
    split at starts
    · rename_i kind
      simp [Token.isEnd, kind]
    · cases starts
  obtain ⟨_, _, _, notEnd, _⟩ := nearest?_split found
  have content : (some nearest).any (·.kind.isContent) = true :=
    TokenKind.isContent_of_shown notEnd
      (nearest_not_blank split startShown isBefore rightAbove filled found)
      (nearest_not_start split found notFirst)
  rw [ListPlace.early, found, if_pos content]
  exact List.mem_singleton_self _

theorem lateFinding_mem (member : list ∈ outermostLists (tokenize text tabWidth))
    {extent : Extent} {next : Token} {later : List Token} (found : list.extent? = some extent)
    (follows : extent.later = next :: later) (opens : next.kind.opensBlock = true)
    (inside : token ∈ list.start :: extent.inside) (rightAbove : token.RightAbove next)
    (filled : Filled (tokenize text tabWidth) token.position.line) :
    list.lateFinding extent ∈ list.late := by
  obtain ⟨split, _, _⟩ := mem_outermostLists.mp member
  obtain ⟨extent', container, natural, _, found', ends, _⟩ := exists_extent_of_outermost member
  cases found.symm.trans found'
  have closeEnds : extent.close.isEnd = true := by simp [Token.isEnd, ends]
  have nextShown : next.isEnd = false := by
    unfold Token.isEnd
    split <;> simp_all [TokenKind.opensBlock]
  rw [extent?_split found, follows] at split
  have split : tokenize text tabWidth =
      (list.upToEnd extent ++ [extent.close]) ++ next :: later := by
    simp [split, ListPlace.upToEnd]
  have isBefore : token ∈ list.upToEnd extent ++ [extent.close] :=
    List.mem_append_left _ (List.mem_append_right _ inside)
  obtain ⟨nearest, isNearest⟩ := exists_nearest isBefore
    (Token.not_isEnd_of_isMarkerOrText rightAbove.shows)
  have notBlank := nearest_not_blank split nextShown isBefore rightAbove filled isNearest
  rw [nearest?_concat, if_pos closeEnds] at isNearest
  rw [ListPlace.late, found]
  simp only
  rw [if_pos (by simp [follows, opens, isNearest, notBlank])]
  exact List.mem_singleton_self _

end

/-- In every text, an outermost list is reported that has a marker or a text right above the block
that follows it in its container. So is one that has a marker or a text right above its start and is
not the first block in its container. In both, the line above is not made of markers alone. -/
theorem touching_lists_reported (text : Text) (tabWidth : Nat) :
    ∃ violations, ((Linter.builtin tabWidth).lintText text).2 = .ok violations ∧
      ∀ list ∈ outermostLists (tokenize text tabWidth),
        (∀ extent next later token, list.extent? = some extent → extent.later = next :: later →
          next.kind.opensBlock = true → token ∈ list.start :: extent.inside →
          token.RightAbove next → Filled (tokenize text tabWidth) token.position.line →
          Rule.listBlanks.info.violation (Source.ofText text tabWidth)
            (list.lateFinding extent) ∈ violations) ∧
        (∀ token ∈ list.before, token.RightAbove list.start →
          Filled (tokenize text tabWidth) token.position.line →
          (∀ last ∈ list.before.getLast?, last.opened? = none) →
          Rule.listBlanks.info.violation (Source.ofText text tabWidth)
            list.earlyFinding ∈ violations) := by
  obtain ⟨violations, linted, reported⟩ := exists_lintText text tabWidth
  refine ⟨violations, linted, ?_⟩
  intro list member
  have isReported {finding : Finding} (found : finding ∈ list.early ++ list.late) :
      Rule.listBlanks.info.violation (Source.ofText text tabWidth) finding ∈ violations := by
    have own : Rule.listBlanks.info.violation (Source.ofText text tabWidth) finding ∈
        violations.filter (·.ruleId == ("MD032" : Text)) := by
      rw [reported]
      exact (mem_sortByKey _).mpr
        (List.mem_map.mpr ⟨finding, List.mem_flatMap.mpr ⟨list, member, found⟩, rfl⟩)
    exact List.mem_of_mem_filter own
  constructor
  · intro extent next later token found follows opens inside rightAbove filled
    exact isReported (List.mem_append_right _
      (lateFinding_mem member found follows opens inside rightAbove filled))
  · intro token isBefore rightAbove filled notFirst
    exact isReported (List.mem_append_left _
      (earlyFinding_mem member isBefore rightAbove filled notFirst))

/-- The heading touches the end of the list, and the paragraph its start. -/
theorem touching_lists_reported_both :
    let text : Text := ['a', '\n', '-', ' ', 'b', '\n', '#', ' ', 'c']
    let tokens := tokenize text 4
    let start : Token :=
      ⟨.containerStart (.list (.bulleted '-')) (some ⟨1, 3, false⟩), ⟨2, 1⟩, [], ['-', ' ']⟩
    let list : ListPlace := ⟨tokens.take 3, start, tokens.drop 4⟩
    let extent : Extent := ⟨(tokens.drop 4).take 3,
      endToken (.containerEnd (.list (.bulleted '-')) false) ⟨3, 1⟩, tokens.drop 8⟩
    let above : Token := ⟨.leafContent ['a'] false, ⟨1, 1⟩, [], ['a', '\n']⟩
    let next : Token := ⟨.leafStart (.atxHeading 1), ⟨3, 1⟩, [], ['#', ' ']⟩
    (list ∈ outermostLists tokens ∧ list.extent? = some extent ∧
      extent.later = next :: tokens.drop 9 ∧ next.kind.opensBlock = true ∧
      start.RightAbove next ∧ Filled tokens 2) ∧
    (above ∈ list.before ∧ above.RightAbove start ∧ Filled tokens 1 ∧
      ∀ last ∈ list.before.getLast?, last.opened? = none) ∧
    ∃ violations, ((Linter.builtin 4).lintText text).2 = .ok violations ∧
      Rule.listBlanks.info.violation (Source.ofText text 4) ⟨⟨2, 1⟩, some "after list"⟩ ∈
        violations ∧
      Rule.listBlanks.info.violation (Source.ofText text 4) ⟨⟨2, 1⟩, some "before list"⟩ ∈
        violations := by
  intro text tokens start list extent above next
  have member : list ∈ outermostLists tokens := by decide +kernel
  have found : list.extent? = some extent := by decide +kernel
  have follows : extent.later = next :: tokens.drop 9 := by decide +kernel
  have isBefore : above ∈ list.before := by decide +kernel
  have rightAbove : start.RightAbove next := ⟨rfl, rfl⟩
  have rightAbove' : above.RightAbove start := ⟨rfl, rfl⟩
  have filled : Filled tokens 2 := by decide +kernel
  have filled' : Filled tokens 1 := by decide +kernel
  have notFirst : ∀ last ∈ list.before.getLast?, last.opened? = none := by decide +kernel
  have isLate : list.lateFinding extent = ⟨⟨2, 1⟩, some "after list"⟩ := by decide +kernel
  obtain ⟨violations, linted, reported⟩ := touching_lists_reported text 4
  obtain ⟨late, early⟩ := reported list member
  refine ⟨⟨member, found, follows, rfl, rightAbove, filled⟩,
    ⟨isBefore, rightAbove', filled', notFirst⟩, violations, linted, ?_, ?_⟩
  · rw [← isLate]
    exact late extent next _ start found follows rfl List.mem_cons_self rightAbove filled
  · exact early above isBefore rightAbove' filled' notFirst

/-- The paragraph touches the list, but the list is the first block in the quote. -/
theorem first_list_unreported :
    let text : Text := ['a', '\n', '>', ' ', '-', ' ', 'b']
    let tokens := tokenize text 4
    let start : Token :=
      ⟨.containerStart (.list (.bulleted '-')) (some ⟨3, 5, false⟩), ⟨2, 3⟩, [], ['-', ' ']⟩
    let list : ListPlace := ⟨tokens.take 4, start, tokens.drop 5⟩
    let above : Token := ⟨.leafContent ['a'] false, ⟨1, 1⟩, [], ['a', '\n']⟩
    list ∈ outermostLists tokens ∧ above ∈ list.before ∧ above.RightAbove start ∧
      (Outline.empty.after list.before).lines = none ∧
      ∃ violations, ((Linter.builtin 4).lintText text).2 = .ok violations ∧
        Rule.listBlanks.info.violation (Source.ofText text 4) list.earlyFinding ∉ violations := by
  intro text tokens start list above
  obtain ⟨violations, linted, reported⟩ := exists_lintText text 4
  have nothing : ((outermostLists tokens).flatMap fun list => list.early ++ list.late) = [] := by
    decide +kernel
  refine ⟨by decide +kernel, by decide +kernel, ⟨rfl, rfl⟩, by decide +kernel, violations, linted,
    ?_⟩
  intro member
  have own : Rule.listBlanks.info.violation (Source.ofText text 4) list.earlyFinding ∈
      violations.filter (·.ruleId == ("MD032" : Text)) :=
    List.mem_filter.mpr ⟨member, by decide +kernel⟩
  rw [reported, nothing] at own
  simp [Violation.sort] at own

end BlockLint
