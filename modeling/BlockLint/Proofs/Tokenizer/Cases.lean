import BlockLint.Tokenizer

/-!
What a line can do to a tokenizer, said once. A property of the effect of any line is a property of
each of the effects listed here, so no later proof opens `lineEffect` or `leafLine` again.
-/
namespace BlockLint

theorem LineClass.of_setextUnderline {rest : Text} {paragraphOpen : Bool} {level : Nat}
    (found : LineClass.of rest paragraphOpen = .setextUnderline level) : paragraphOpen = true := by
  cases paragraphOpen with
  | true => rfl
  | false =>
    unfold LineClass.of at found
    repeat' split at found
    all_goals simp_all

theorem LineClass.isBlank_of_blank {rest : Text} {paragraphOpen : Bool}
    (found : LineClass.of rest paragraphOpen = .blank) : Text.isBlank rest = true := by
  unfold LineClass.of at found
  repeat' split at found
  all_goals simp_all

theorem LineClass.codeIndent_le {rest : Text} {paragraphOpen : Bool}
    (found : LineClass.of rest paragraphOpen = .indented) : codeIndent ≤ Text.spaces rest := by
  unfold LineClass.of at found
  repeat' split at found
  all_goals simp_all

theorem LineClass.rest_ne_nil {rest : Text} {paragraphOpen : Bool}
    (filled : LineClass.of rest paragraphOpen ≠ .blank) : rest ≠ [] := by
  rintro rfl
  exact filled rfl

theorem LineClass.of_fenceOpen {rest : Text} {paragraphOpen : Bool} {fence : Fence}
    (found : LineClass.of rest paragraphOpen = .fenceOpen fence) :
    Fence.open? rest = some fence := by
  unfold LineClass.of at found
  repeat' split at found
  all_goals simp_all

theorem LineClass.of_atxHeading {rest : Text} {paragraphOpen : Bool} {heading : AtxHeading}
    (found : LineClass.of rest paragraphOpen = .atxHeading heading) :
    AtxHeading.parse? rest = some heading := by
  unfold LineClass.of at found
  repeat' split at found
  all_goals simp_all

/-- A fence is a run of backticks or tildes behind the indent. The info string is the rest of the
line without the spaces around it. -/
theorem Fence.open?_cases {rest : Text} {fence : Fence} (found : Fence.open? rest = some fence) :
    ∃ char after, rest.drop (Text.spaces rest) = char :: after ∧
      (char = Fence.backtick ∨ char = Fence.tilde) ∧ Fence.minLength ≤ fence.length ∧
      fence = ⟨char, ((char :: after).takeWhile (· == char)).length, Text.spaces rest,
        Text.dropTail (· == ' ') (Text.dropSpaces ((char :: after).drop fence.length))⟩ := by
  unfold Fence.open? at found
  dsimp only at found
  split at found
  · contradiction
  · split at found
    · contradiction
    · rename_i char after body
      split at found
      · contradiction
      · rename_i isSign
        split at found
        · contradiction
        · rename_i long
          split at found
          · contradiction
          · cases Option.some.inj found
            refine ⟨char, after, body, ?_, Nat.le_of_not_lt long, rfl⟩
            by_cases isTick : char = Fence.backtick
            · exact .inl isTick
            · right
              simpa [isTick] using isSign

theorem Fence.minLength_le_of_open? {rest : Text} {fence : Fence}
    (found : Fence.open? rest = some fence) : Fence.minLength ≤ fence.length := by
  obtain ⟨_, _, _, _, long, _⟩ := Fence.open?_cases found
  exact long

theorem Fence.indent_of_open? {rest : Text} {fence : Fence} (found : Fence.open? rest = some fence) :
    fence.indent = Text.spaces rest := by
  obtain ⟨_, _, _, _, _, same⟩ := Fence.open?_cases found
  rw [same]

theorem Fence.rest_ne_nil_of_closes {fence : Fence} {rest : Text}
    (long : Fence.minLength ≤ fence.length) (closes : fence.closes rest = true) : rest ≠ [] := by
  rintro rfl
  simp [Fence.closes, Text.spaces, Text.dropSpaces, codeIndent] at closes
  simp [closes, Fence.minLength] at long

theorem Marker.readAll_nil {inParagraph : Bool} {c last : Cursor}
    (none : Marker.readAll inParagraph c = ([], last)) : last = c := by
  rw [Marker.readAll] at none
  repeat' split at none
  all_goals simp_all

theorem Containers.close_cons (frame : Frame) (inner : Containers) (natural : Bool)
    (position : Position) :
    Containers.close (frame :: inner) natural position =
      inner.close natural position ++ Containers.close [frame] natural position := by
  simp [close]

namespace Tokenizer

variable {motive : Effect → Prop}

/-- The rest of a line, where no fence is open. -/
theorem leafLine_cases (line : Line) (lead : Text) (c : Cursor) (containers : Containers)
    (leaf : OpenLeaf) (opened : Bool) (noFence : ∀ fence, leaf ≠ .fencedCode fence)
    (held : ∀ held, leaf = .indentedCode held → LineClass.of c.rest false = .blank →
      motive
        { written := []
          containers := if opened then containers else containers.closeEmptyItems
          leaf := .indentedCode
            (held ++ [⟨tokenAt line c.offset .blankLine lead (literalFrom line c), c.rest⟩]) })
    (blank : (∀ held, leaf ≠ .indentedCode held) → LineClass.of c.rest leaf.isParagraph = .blank →
      motive
        { written :=
            leaf.close true (line.position c.offset) ++
              [tokenAt line c.offset .blankLine lead (literalFrom line c)]
          containers := if opened then containers else containers.closeEmptyItems
          leaf := .none })
    (setext : ∀ level opening contents, leaf = .paragraph opening contents →
      LineClass.of c.rest true = .setextUnderline level →
      motive
        { written :=
            { opening with kind := .leafStart (.setextHeading level) } :: contents ++
              [tokenAt line (c.offset + c.indent) (.leafEnd (.setextHeading level) true) lead
                (literalFrom line c)]
          containers, leaf := .none })
    (text : LineClass.of c.rest leaf.isParagraph = .text ∨
        (leaf.isParagraph = true ∧ LineClass.of c.rest true = .indented) →
      motive (paragraphLine line lead c containers leaf false))
    (moreCode : ∀ held, leaf = .indentedCode held → LineClass.of c.rest false = .indented →
      motive
        { written := codeLine line lead c held
          containers := containers.markContent
          leaf := .indentedCode [] })
    (newCode : leaf = .none → LineClass.of c.rest false = .indented →
      motive
        { written :=
            tokenAt line (c.offset + codeIndent) (.leafStart .indentedCode) lead [] ::
              codeLine line [] c []
          containers := containers.markContent
          leaf := .indentedCode [] })
    (atxHeading : ∀ heading, LineClass.of c.rest leaf.isParagraph = .atxHeading heading →
      motive
        { written :=
            leaf.close true (line.position c.offset) ++
              [tokenAt line (c.offset + c.indent) (.leafStart (.atxHeading heading.level)) lead
                (c.upTo (c.skip heading.contentStart)),
                tokenAt line (c.skip heading.contentStart).offset (.leafContent heading.text false)
                  [] (literalFrom line (c.skip heading.contentStart)),
                endToken (.leafEnd (.atxHeading heading.level) true) line.endPosition]
          containers := containers.markContent
          leaf := .none })
    (thematicBreak : LineClass.of c.rest leaf.isParagraph = .thematicBreak →
      motive
        { written :=
            leaf.close true (line.position c.offset) ++
              [tokenAt line (c.offset + c.indent) (.leafStart .thematicBreak) lead
                (literalFrom line c),
                endToken (.leafEnd .thematicBreak true) line.endPosition]
          containers := containers.markContent
          leaf := .none })
    (fenceOpen : ∀ fence, LineClass.of c.rest leaf.isParagraph = .fenceOpen fence →
      motive
        { written :=
            leaf.close true (line.position c.offset) ++
              [tokenAt line (c.offset + fence.indent) (.leafStart fence.leafKind) lead
                (literalFrom line c)]
          containers := containers.markContent
          leaf := .fencedCode fence }) :
    motive (leafLine line lead c containers leaf opened) := by
  unfold leafLine
  cases found : LineClass.of c.rest leaf.isParagraph with
  | blank =>
    cases leaf with
    | none => exact blank (by simp) found
    | paragraph opening contents => exact blank (by simp) found
    | indentedCode heldBlanks => exact held heldBlanks rfl found
    | fencedCode fence => exact absurd rfl (noFence fence)
  | setextUnderline level =>
    have underParagraph := LineClass.of_setextUnderline found
    cases leaf with
    | paragraph opening contents => exact setext level opening contents rfl found
    | _ => simp [OpenLeaf.isParagraph] at underParagraph
  | indented =>
    cases leaf with
    | none => exact newCode rfl found
    | paragraph opening contents => exact text (.inr ⟨rfl, found⟩)
    | indentedCode heldBlanks => exact moreCode heldBlanks rfl found
    | fencedCode fence => exact absurd rfl (noFence fence)
  | atxHeading heading => exact atxHeading heading found
  | thematicBreak => exact thematicBreak found
  | fenceOpen fence => exact fenceOpen fence found
  | text => exact text (.inl found)

/-- The first marker of a line, after containers of which the line continues `depth`. -/
theorem openFirst_cases {motive : List Token × Containers → Prop} (line : Line) (lead : Text)
    (containers : Containers) (leaf : OpenLeaf) (depth : Nat) (marker : Marker)
    (all : containers.drop depth = [] →
      motive
        (leaf.close true (line.position marker.start.offset) ++
            [(openContainer line lead (containers.take depth) marker).1],
          (openContainer line lead (containers.take depth) marker).2))
    (sibling : ∀ start item kind current inner, marker = .item start item →
      containers.drop depth = .list kind current :: inner → kind.sameType item.kind = true →
      motive
        (leaf.close false (line.position start.offset) ++
            Containers.close inner false (line.position start.offset) ++
            [tokenAt line item.markerOffset
              (.newListItem (item.listItem start).geometry item.number?) lead
              (start.upTo (item.past start))],
          containers.take depth ++ [.list kind (item.listItem start)]))
    (replaced : ∀ start item kind current inner, marker = .item start item →
      containers.drop depth = .list kind current :: inner → kind.sameType item.kind = false →
      motive
        (leaf.close false (line.position start.offset) ++
            Containers.close inner false (line.position start.offset) ++
            Containers.close [.list kind current] true (line.position start.offset) ++
            [(openContainer line lead (containers.take depth) marker).1],
          (openContainer line lead (containers.take depth) marker).2))
    (other : ∀ frame inner, containers.drop depth = frame :: inner →
      (∀ start item kind current, marker = .item start item → frame ≠ .list kind current) →
      motive
        (leaf.close false (line.position marker.start.offset) ++
            Containers.close (frame :: inner) false (line.position marker.start.offset) ++
            [(openContainer line lead (containers.take depth) marker).1],
          (openContainer line lead (containers.take depth) marker).2)) :
    motive (openFirst line lead containers leaf depth marker) := by
  unfold openFirst
  split
  · rename_i none
    exact all none
  · rename_i start item kind current inner same
    split
    · rename_i type
      exact sibling start item kind current inner rfl same type
    · rename_i type
      exact replaced start item kind current inner rfl same (by simpa using type)
  · rename_i some noList
    cases same : containers.drop depth with
    | nil => exact absurd same some
    | cons frame inner =>
      refine other frame inner same ?_
      intro start item kind current isItem isList
      exact noList start item kind current inner isItem (isList ▸ same)

/-- What holds of all tokens that are closed or opened, and of two lists together if of each, holds
of what the first marker writes. -/
theorem openFirst_tokens {p : List Token → Prop}
    (append : ∀ left right, p left → p right → p (left ++ right)) (line : Line) (lead : Text)
    (containers : Containers) (leaf : OpenLeaf) (depth : Nat) (marker : Marker)
    (leafClosed : ∀ natural position, p (leaf.close natural position))
    (closed : ∀ (inner : Containers) natural position, p (inner.close natural position))
    (opened : ∀ outer, p [(openContainer line lead outer marker).1])
    (nextItem : ∀ start item, marker = .item start item →
      p [tokenAt line item.markerOffset
        (.newListItem (item.listItem start).geometry item.number?) lead
        (start.upTo (item.past start))]) :
    p (openFirst line lead containers leaf depth marker).1 := by
  have before (inner : Containers) (position : Position) :
      p (leaf.close false position ++ inner.close false position) :=
    append _ _ (leafClosed _ _) (closed _ _ _)
  refine openFirst_cases (motive := fun result => p result.1) line lead containers leaf depth
    marker ?all ?sibling ?replaced ?other
  case all =>
    intro _
    exact append _ _ (leafClosed _ _) (opened _)
  case sibling =>
    intro start item kind current inner isItem _ _
    exact append _ _ (before inner _) (nextItem start item isItem)
  case replaced =>
    intro start item kind current inner _ _ _
    exact append _ _ (append _ _ (before inner _) (closed _ _ _)) (opened _)
  case other =>
    intro frame inner _ _
    exact append _ _ (before (frame :: inner) _) (opened _)

/-- A whole line. `found` is how far it continues the containers. -/
theorem lineEffect_cases (containers : Containers) (leaf : OpenLeaf) (line : Line)
    {found : Containers.Match} (matching : containers.matchLine line.expanded = found)
    (fenced : ∀ fence, leaf = .fencedCode fence → found.depth = containers.length →
      motive
        { written := [(fencedLine line (found.lead line.expanded) found.cursor fence).1]
          containers
          leaf := (fencedLine line (found.lead line.expanded) found.cursor fence).2 })
    (opened : ∀ first later c,
      Marker.readAll (found.depth == containers.length && leaf.isParagraph) found.cursor =
        (first :: later, c) →
      (found.depth = containers.length → ∀ fence, leaf ≠ .fencedCode fence) →
      motive
        (openedLine line (found.lead line.expanded) containers leaf found.depth first later c))
    (matched : found.depth = containers.length → (∀ fence, leaf ≠ .fencedCode fence) →
      Marker.readAll leaf.isParagraph found.cursor = ([], found.cursor) →
      motive (leafLine line (found.lead line.expanded) found.cursor containers leaf false))
    (lazy : found.depth ≠ containers.length →
      Marker.readAll false found.cursor = ([], found.cursor) → leaf.isParagraph = true →
      (LineClass.of found.cursor.rest false).continuesParagraph = true →
      motive (paragraphLine line (found.lead line.expanded) found.cursor containers leaf true))
    (unmatched : found.depth ≠ containers.length →
      Marker.readAll false found.cursor = ([], found.cursor) →
      (leaf.isParagraph && (LineClass.of found.cursor.rest false).continuesParagraph) = false →
      motive
        (unmatchedLine line (found.lead line.expanded) found.cursor containers leaf
          found.depth)) :
    motive (lineEffect containers leaf line) := by
  simp only [lineEffect, matching]
  split
  · rename_i fence isFence
    by_cases all : found.depth = containers.length
    · simp only [all, beq_self_eq_true, if_true] at isFence
      exact fenced fence isFence all
    · simp [all] at isFence
  · rename_i noFence
    have noFence : found.depth = containers.length → ∀ fence, leaf ≠ .fencedCode fence := by
      intro all fence isFence
      exact noFence fence (by simp [all, isFence])
    split
    · rename_i first later c markers
      exact opened first later c markers noFence
    · rename_i c markers
      cases Marker.readAll_nil markers
      by_cases all : found.depth = containers.length
      · simp only [all, beq_self_eq_true, Bool.true_and] at markers
        simp only [all, beq_self_eq_true, if_true]
        exact matched all (noFence all) markers
      · have some : (found.depth == containers.length) = false := by simpa using all
        simp only [some, Bool.false_and] at markers
        simp only [some, Bool.false_eq_true, if_false]
        split
        · rename_i goesOn
          obtain ⟨isParagraph, continues⟩ := Bool.and_eq_true_iff.mp goesOn
          exact lazy all markers isParagraph continues
        · rename_i ends
          exact unmatched all markers (by simpa using ends)

end Tokenizer
end BlockLint
