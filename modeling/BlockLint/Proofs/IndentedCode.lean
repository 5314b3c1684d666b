import BlockLint.Proofs.BlankLines
import BlockLint.Proofs.CodeStarts
import BlockLint.Proofs.ItemStates

/-!
Indented code and the blank lines in it. A blank line after code is held back, for only a later line
tells whether it belongs to the code. If more code follows, the blank lines before it are contents;
if not, they stand behind the end of the code, which is placed at the first of them.

One line holds a blank line, goes on with the code, or ends it. The run is by induction on the
lines, with the lines that are held kept beside what is held of them. The containers stay as they
are all the while, because every item around a leaf has content.
-/
namespace BlockLint

/-- The rest of a line belongs to indented code, and the token is its content. -/
structure CodeContent (rest : Text) (line : Line) (content : Token) : Prop where
  isCode : Text.isBlank rest = true ∨ codeIndent ≤ Text.spaces rest
  kind : content.kind = .leafContent (rest.drop (min codeIndent (Text.spaces rest))) false
  place : content.position.line = line.number

/-- The line is blank behind the markers by which it continues the containers, and the token is that
blank line. -/
structure BlankBehind (containers : Containers) (line : Line) (token : Token) : Prop where
  rest : ∃ rest, containers.rest? line = some rest ∧ Text.isBlank rest = true ∧
    token.literal = rest ++ line.ending
  kind : token.kind = .blankLine
  place : token.position.line = line.number

/-- The token ends indented code before the blank lines that stand behind it. The line that ends the
code does not continue the containers, or it is neither blank nor code. -/
structure CodeEnds (containers : Containers) (stop : Token) (blanks : List Token)
    (later : List Line) : Prop where
  kind : ∃ natural, stop.kind = .leafEnd .indentedCode natural
  place : ∀ blank, blanks.head? = some blank → stop.position = blank.position
  leaves : ∀ line rest, later.head? = some line → containers.rest? line = some rest →
    Text.isBlank rest = false ∧ Text.spaces rest < codeIndent

def Token.ShowsText (token : Token) : Prop :=
  ∃ text, token.kind = .leafContent text false ∧ ∃ c ∈ text, c ≠ ' '

theorem CodeContent.showsText {rest : Text} {line : Line} {content : Token}
    (isContent : CodeContent rest line content) (filled : Text.isBlank rest = false) :
    content.ShowsText := by
  refine ⟨_, isContent.kind, ?_⟩
  have stays : Text.isBlank (rest.drop (min codeIndent (Text.spaces rest))) = false := by
    rw [Text.isBlank_drop (Nat.min_le_right _ _), filled]
  obtain ⟨c, member, notSpace⟩ := List.all_eq_false.mp stays
  exact ⟨c, member, by simpa using notSpace⟩

theorem LineClass.shallow_of_other {rest : Text} {inParagraph : Bool} {leafClass : LineClass}
    (found : LineClass.of rest inParagraph = leafClass) (notBlank : leafClass ≠ .blank)
    (notIndented : leafClass ≠ .indented) :
    Text.isBlank rest = false ∧ Text.spaces rest < codeIndent := by
  have filled : Text.isBlank rest = false := by
    by_contra blank
    rw [Bool.not_eq_false] at blank
    exact notBlank (by rw [← found, LineClass.of, if_pos blank])
  refine ⟨filled, ?_⟩
  by_contra deep
  exact notIndented (found ▸ LineClass.of_eq_indented_iff.mpr ⟨filled, Nat.le_of_not_lt deep⟩)

namespace Tokenizer

structure Held (containers : Containers) (line : Line) (blank : HeldBlank) : Prop where
  rest : containers.rest? line = some blank.rest
  isBlank : Text.isBlank blank.rest = true
  kind : blank.token.kind = .blankLine
  place : blank.token.position.line = line.number
  literal : blank.token.literal = blank.rest ++ line.ending

theorem Held.behind {containers : Containers} {line : Line} {blank : HeldBlank}
    (held : Held containers line blank) : BlankBehind containers line blank.token :=
  ⟨⟨blank.rest, held.rest, held.isBlank, held.literal⟩, held.kind, held.place⟩

def GoesOn (containers : Containers) (line : Line) (content : Token) : Prop :=
  ∃ rest, containers.rest? line = some rest ∧ CodeContent rest line content

theorem GoesOn.place {containers : Containers} {line : Line} {content : Token}
    (goesOn : GoesOn containers line content) : content.position.line = line.number := by
  obtain ⟨_, _, isContent⟩ := goesOn
  exact isContent.place

theorem Held.goesOn {containers : Containers} {line : Line} {blank : HeldBlank}
    (held : Held containers line blank) : GoesOn containers line blank.content :=
  ⟨blank.rest, held.rest, .inl held.isBlank, rfl, held.place⟩

inductive CodeStep (containers : Containers) (held : List HeldBlank) (line : Line) :
    Effect → Prop where
  | blank {blank : HeldBlank} : Held containers line blank →
      CodeStep containers held line ⟨[], containers, .indentedCode (held ++ [blank])⟩
  | code {rest : Text} {content : Token} : containers.rest? line = some rest →
      Text.isBlank rest = false → CodeContent rest line content →
      CodeStep containers held line
        ⟨held.map HeldBlank.content ++ [content], containers, .indentedCode []⟩
  | ends {effect : Effect} {natural : Bool} {position : Position} {tail : List Token} :
      effect.written = (OpenLeaf.indentedCode held).close natural position ++ tail →
      (∀ rest, containers.rest? line = some rest →
        Text.isBlank rest = false ∧ Text.spaces rest < codeIndent) →
      CodeStep containers held line effect

theorem leafLine_codeStep {containers : Containers} (filled : containers.Filled)
    (held : List HeldBlank) (line : Line) (lead : Text) {c : Cursor}
    (continues : containers.rest? line = some c.rest) :
    CodeStep containers held line
      (leafLine line lead c containers (.indentedCode held) false) := by
  have other {inParagraph : Bool} {leafClass : LineClass}
      (found : LineClass.of c.rest inParagraph = leafClass) (notBlank : leafClass ≠ .blank)
      (notIndented : leafClass ≠ .indented) (rest : Text)
      (isRest : containers.rest? line = some rest) :
      Text.isBlank rest = false ∧ Text.spaces rest < codeIndent := by
    rw [continues] at isRest
    cases isRest
    exact LineClass.shallow_of_other found notBlank notIndented
  refine leafLine_cases (motive := CodeStep containers held line) line lead c containers
    (.indentedCode held) false (by simp) ?held ?blank ?setext ?text ?moreCode ?newCode ?atxHeading
    ?thematicBreak ?fenceOpen
  case held =>
    intro _ same isBlank
    cases same
    rw [filled.closeEmptyItems, ite_self]
    exact .blank ⟨continues, LineClass.isBlank_of_blank isBlank, rfl, rfl, rfl⟩
  case blank =>
    intro notCode
    exact absurd rfl (notCode held)
  case setext => simp
  case text =>
    intro found
    rcases found with isText | ⟨isParagraph, _⟩
    · exact .ends (List.append_nil _).symm (other isText (by simp) (by simp))
    · cases isParagraph
  case moreCode =>
    intro _ same isCode
    cases same
    obtain ⟨notBlank, deep⟩ := LineClass.of_eq_indented_iff.mp isCode
    rw [filled.markContent]
    refine .code continues notBlank ⟨.inr deep, ?_, rfl⟩
    rw [Nat.min_eq_left deep]
    rfl
  case newCode => simp
  case atxHeading =>
    intro heading found
    exact .ends rfl (other found (by simp) (by simp))
  case thematicBreak =>
    intro found
    exact .ends rfl (other found (by simp) (by simp))
  case fenceOpen =>
    intro fence found
    exact .ends rfl (other found (by simp) (by simp))

theorem lineEffect_codeStep {containers : Containers} (filled : containers.Filled)
    (held : List HeldBlank) (line : Line) :
    CodeStep containers held line (lineEffect containers (.indentedCode held) line) := by
  generalize matching : containers.matchLine line.expanded = found
  have continued (all : found.depth = containers.length) :
      containers.rest? line = some found.cursor.rest := by
    simp only [Containers.rest?, matching, all, if_true]
  refine lineEffect_cases (motive := CodeStep containers held line) containers
    (.indentedCode held) line matching ?fenced ?opened ?matched ?lazy ?unmatched
  case fenced => simp
  case opened =>
    intro first later c read _
    obtain ⟨isFound, shallow⟩ := Marker.foundAt_of_readAll read
    obtain ⟨natural, position, ⟨rest, closes⟩⟩ := close_prefix_openFirst line
      (found.lead line.expanded) containers (.indentedCode held) found.depth first
    refine .ends (by simp only [openedLine, ← closes, List.append_assoc]; rfl) ?_
    -- Even where all containers continue, a marker stands before the indent of code.
    intro rest isRest
    by_cases all : found.depth = containers.length
    · rw [continued all] at isRest
      cases isRest
      exact ⟨isFound.filled, shallow⟩
    · simp only [Containers.rest?, matching, all, if_false] at isRest
      cases isRest
  case matched =>
    intro all _ _
    exact leafLine_codeStep filled held line _ (continued all)
  case lazy =>
    intro _ _ isParagraph
    cases isParagraph
  case unmatched =>
    intro missing _ _
    refine .ends (by simp only [unmatchedLine, List.append_assoc]; rfl) ?_
    intro rest isRest
    simp only [Containers.rest?, matching, missing, if_false] at isRest
    cases isRest

theorem forall₂_behind {containers : Containers} {heldLines : List Line} {held : List HeldBlank}
    (holds : List.Forall₂ (Held containers) heldLines held) :
    List.Forall₂ (BlankBehind containers) heldLines (held.map (·.token)) :=
  List.forall₂_map_right_iff.mpr (holds.imp fun _ _ isHeld => isHeld.behind)

theorem forall₂_goesOn {containers : Containers} {heldLines : List Line} {held : List HeldBlank}
    (holds : List.Forall₂ (Held containers) heldLines held) :
    List.Forall₂ (GoesOn containers) heldLines (held.map HeldBlank.content) :=
  List.forall₂_map_right_iff.mpr (holds.imp fun _ _ isHeld => isHeld.goesOn)

theorem codeEnds_close (containers : Containers) (held : List HeldBlank) (natural : Bool)
    (position : Position) (later : List Line)
    (leaves : ∀ line rest, later.head? = some line → containers.rest? line = some rest →
      Text.isBlank rest = false ∧ Text.spaces rest < codeIndent) :
    ∃ stop, (OpenLeaf.indentedCode held).close natural position =
        stop :: held.map (·.token) ∧
      CodeEnds containers stop (held.map (·.token)) later := by
  refine ⟨_, rfl, ⟨natural, rfl⟩, ?_, leaves⟩
  intro blank isFirst
  rw [List.head?_map] at isFirst
  cases held with
  | nil => cases isFirst
  | cons first _ =>
    cases isFirst
    rfl

/-- While indented code is open, what is held and the lines that follow are contents up to the last
line of code, and then the blank lines behind it. -/
theorem runFrom_indented {state : State} {held : List HeldBlank} {heldLines : List Line}
    (isCode : state.leaf = .indentedCode held) (filled : state.containers.Filled)
    (holds : List.Forall₂ (Held state.containers) heldLines held) (lines : List Line) :
    ∃ more blankLines later contents stop blanks rest,
      heldLines ++ lines = more ++ (blankLines ++ later) ∧
      runFrom state lines = contents ++ stop :: (blanks ++ rest) ∧
      List.Forall₂ (GoesOn state.containers) more contents ∧
      (∀ content, contents.getLast? = some content → content.ShowsText) ∧
      List.Forall₂ (BlankBehind state.containers) blankLines blanks ∧
      CodeEnds state.containers stop blanks later := by
  induction lines generalizing state held heldLines with
  | nil =>
    obtain ⟨stop, closes, ends⟩ := codeEnds_close state.containers held false state.reached []
      (by simp)
    refine ⟨[], heldLines, [], [], stop, _, state.containers.close false state.reached, rfl, ?_,
      .nil, by simp, forall₂_behind holds, ends⟩
    rw [runFrom, finish, isCode, closes]
    rfl
  | cons line lines ih =>
    have goes := lineEffect_codeStep filled held line
    rw [runFrom]
    simp only [step, isCode]
    generalize lineEffect state.containers (.indentedCode held) line = effect at goes
    cases goes with
    | @blank blank isHeld =>
      have stays : (⟨state.containers, .indentedCode (held ++ [blank]), line.endPosition⟩ :
          State).leaf = .indentedCode (held ++ [blank]) := rfl
      obtain ⟨more, blankLines, later, contents, stop, blanks, rest, same, tokens, others⟩ :=
        ih stays filled (List.rel_append holds (.cons isHeld .nil))
      exact ⟨more, blankLines, later, contents, stop, blanks, rest, by simpa using same, tokens,
        others⟩
    | @code _ content continues notBlank isContent =>
      have stays : (⟨state.containers, .indentedCode [], line.endPosition⟩ : State).leaf =
          .indentedCode [] := rfl
      obtain ⟨more, blankLines, later, contents, stop, blanks, rest, same, tokens, each, last,
        others⟩ := ih stays filled .nil
      refine ⟨heldLines ++ line :: more, blankLines, later,
        held.map HeldBlank.content ++ content :: contents, stop, blanks, rest, ?_, ?_, ?_, ?_,
        others⟩
      · rw [List.nil_append] at same
        rw [same, List.append_assoc]
        rfl
      · rw [tokens]
        simp
      · exact List.rel_append (forall₂_goesOn holds) (.cons ⟨_, continues, isContent⟩ each)
      · intro shown isLast
        rw [List.getLast?_append_cons, List.getLast?_cons] at isLast
        cases isLast
        cases inLater : contents.getLast? with
        | none => exact isContent.showsText notBlank
        | some later => exact last later inLater
    | @ends _ natural position tail written leaves =>
      obtain ⟨stop, closes, ends⟩ := codeEnds_close state.containers held natural position
        (line :: lines) (by rintro _ rest ⟨⟩; exact leaves rest)
      rw [written, closes, List.append_assoc, List.cons_append]
      exact ⟨[], heldLines, line :: lines, [], stop, _, _, rfl, rfl, .nil, by simp,
        forall₂_behind holds, ends⟩

/-- Indented code starts with a line that shows text, and nothing is held then. -/
theorem StartsCode.exists_first {line : Line} {c : Cursor} {opening : Token} {back : List Token}
    {leaf : OpenLeaf} (starts : StartsCode line c opening back leaf)
    (isCode : opening.kind = .leafStart .indentedCode) :
    ∃ first, back = [first] ∧ leaf = .indentedCode [] ∧ CodeContent c.rest line first ∧
      first.ShowsText := by
  cases starts with
  | fenced lead opens => cases isCode
  | indented lead isIndented =>
    obtain ⟨notBlank, deep⟩ := LineClass.of_eq_indented_iff.mp isIndented
    have isFirst : CodeContent c.rest line (tokenAt line (c.offset + codeIndent)
        (.leafContent (c.rest.drop codeIndent) false) [] (literalFrom line c)) := by
      refine ⟨.inr deep, ?_, rfl⟩
      rw [Nat.min_eq_left deep]
      rfl
    exact ⟨_, rfl, rfl, isFirst, isFirst.showsText notBlank⟩

theorem kind_of_behind {containers : Containers} {blankLines : List Line} {blanks : List Token}
    (each : List.Forall₂ (BlankBehind containers) blankLines blanks) :
    ∀ blank ∈ blanks, blank.kind = .blankLine := by
  induction each with
  | nil => simp
  | cons behind _ ih => exact List.forall_mem_cons.mpr ⟨behind.kind, ih⟩

/-- The contents of indented code stand on consecutive lines from the first to the last that show
text, and the blank lines behind the last stand behind the end of the code, each of them once. -/
theorem indented_code_lines {text : Text} {tabWidth : Nat} {before after : List Token}
    {opening : Token} (split : tokenize text tabWidth = before ++ opening :: after)
    (isCode : opening.kind = .leafStart .indentedCode) :
    ∃ earlier line more blankLines later first contents stop blanks rest,
      (Source.ofText text tabWidth).lines =
        earlier ++ line :: (more ++ (blankLines ++ later)) ∧
      writtenFrom .initial (earlier ++ [line]) = before ++ [opening, first] ∧
      after = first :: (contents ++ stop :: (blanks ++ rest)) ∧
      (first :: contents).map (·.position.line) =
        List.range' opening.position.line (contents.length + 1) ∧
      first.ShowsText ∧ (contents.getLastD first).ShowsText ∧
      CodeContent (pastMarkers (stateAfter .initial earlier).containers
        (stateAfter .initial earlier).leaf line).rest line first ∧
      List.Forall₂ (GoesOn (stateAfter .initial (earlier ++ [line])).containers) more contents ∧
      List.Forall₂ (BlankBehind (stateAfter .initial (earlier ++ [line])).containers)
        blankLines blanks ∧
      CodeEnds (stateAfter .initial (earlier ++ [line])).containers stop blanks later ∧
      ∀ blank ∈ blanks, ∀ token ∈ rest, token.isEnd = false →
        blank.position.line < token.position.line := by
  obtain ⟨earlier, line, others, back, lines, starts, written, rfl⟩ :=
    exists_codeLine split (by rw [isCode]; rfl)
  obtain ⟨first, rfl, isOpen, isFirst, shows⟩ := starts.exists_first isCode
  have filled := (initial_itemsSound (earlier ++ [line])).filled (by simp [isOpen])
  obtain ⟨more, blankLines, later, contents, stop, blanks, rest, rfl, tokens, each, last, behind,
    ends⟩ := runFrom_indented isOpen filled .nil others
  refine ⟨earlier, line, more, blankLines, later, first, contents, stop, blanks, rest, lines,
    written, by rw [tokens]; rfl, ?_, shows, ?_, isFirst, each, behind, ends, ?_⟩
  · rw [List.map_cons, places_of_forall₂ (fun _ _ goesOn => goesOn.place) each,
      Source.numbers_behind lines, each.length_eq, isFirst.place, starts.onLine, List.range'_succ]
  · rw [List.getLastD_eq_getLast?]
    cases isLast : contents.getLast? with
    | none => exact shows
    | some content => exact last content isLast
  · intro blank isBlank token member notEnd
    have order := tokenize_leavesBlank text tabWidth
    rw [split, tokens] at order
    have behindStop : blanks ++ rest <:+
        before ++ opening :: ([first] ++ (contents ++ stop :: (blanks ++ rest))) :=
      ⟨before ++ opening :: first :: contents ++ [stop], by simp⟩
    have apart := (List.pairwise_append.mp (order.sublist behindStop.sublist)).2.2
    have isKind := kind_of_behind behind blank isBlank
    exact apart blank isBlank token member (by simp [Token.isEnd, isKind]) notEnd isKind

theorem indented_code_lines_nested :
    ∃ opening after, tokenize ['-', ' ', ' ', ' ', ' ', ' ', 'a', '\n', '\n', ' ', ' ', ' ', ' ',
        ' ', ' ', 'b', '\n', '\n', 'c'] 4 =
      [⟨.containerStart (.list (.bulleted '-')) (some ⟨1, 3, false⟩), ⟨1, 1⟩, [], ['-', ' ']⟩] ++
        opening :: after ∧
    opening.kind = .leafStart .indentedCode ∧
    ∃ (containers : Containers) (more blankLines later : List Line) (first : Token)
        (contents : List Token) (stop : Token) (blanks rest : List Token),
      after = first :: (contents ++ stop :: (blanks ++ rest)) ∧
      (first :: contents).map (·.position.line) = List.range' 1 (contents.length + 1) ∧
      first.ShowsText ∧ (contents.getLastD first).ShowsText ∧
      List.Forall₂ (GoesOn containers) more contents ∧
      List.Forall₂ (BlankBehind containers) blankLines blanks ∧
      CodeEnds containers stop blanks later := by
  have tokens : tokenize ['-', ' ', ' ', ' ', ' ', ' ', 'a', '\n', '\n', ' ', ' ', ' ', ' ', ' ',
        ' ', 'b', '\n', '\n', 'c'] 4 =
      [⟨.containerStart (.list (.bulleted '-')) (some ⟨1, 3, false⟩), ⟨1, 1⟩, [], ['-', ' ']⟩] ++
        ⟨.leafStart .indentedCode, ⟨1, 7⟩, [], []⟩ ::
        [⟨.leafContent ['a'] false, ⟨1, 7⟩, [], [' ', ' ', ' ', ' ', 'a', '\n']⟩,
          ⟨.leafContent [] false, ⟨2, 1⟩, [], ['\n']⟩,
          ⟨.leafContent ['b'] false, ⟨3, 7⟩, [' ', ' '], [' ', ' ', ' ', ' ', 'b', '\n']⟩,
          ⟨.leafEnd .indentedCode false, ⟨4, 1⟩, [], []⟩,
          ⟨.blankLine, ⟨4, 1⟩, [], ['\n']⟩,
          ⟨.containerEnd (.list (.bulleted '-')) false, ⟨5, 1⟩, [], []⟩,
          ⟨.leafStart .paragraph, ⟨5, 1⟩, [], []⟩,
          ⟨.leafContent ['c'] false, ⟨5, 1⟩, [], ['c']⟩,
          ⟨.leafEnd .paragraph false, ⟨5, 2⟩, [], []⟩] := by
    decide +kernel
  obtain ⟨_, _, more, blankLines, later, first, contents, stop, blanks, rest, _, _, follows, places,
    shows, showsLast, _, each, behind, ends, _⟩ := indented_code_lines tokens rfl
  exact ⟨_, _, tokens, rfl, _, more, blankLines, later, first, contents, stop, blanks, rest,
    follows, places, shows, showsLast, each, behind, ends⟩

end Tokenizer
end BlockLint
