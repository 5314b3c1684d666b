import BlockLint.Proofs.Growth
import BlockLint.Proofs.PlainRests

/-!
Lazy continuation, exactly. A line goes on lazily with a paragraph if it does not continue all open
containers and starts no block of its own. Such a line adds one token and nothing else, right behind
the paragraph's text on the line before.

That a line adds a lazy content is told by the lazy contents of all tokens, written or kept back:
ending a leaf, ending containers and starting blocks leaves these as they are.
-/
namespace BlockLint

/-- Content of a line that did not continue every open container. -/
def TokenKind.isLazy : TokenKind → Bool
  | .leafContent _ isLazy => isLazy
  | _ => false

def lazyContents (tokens : List Token) : List Token :=
  tokens.filter (·.kind.isLazy)

@[simp] theorem lazyContents_append (left right : List Token) :
    lazyContents (left ++ right) = lazyContents left ++ lazyContents right :=
  List.filter_append ..

@[simp] theorem lazyContents_nil : lazyContents [] = [] := rfl

@[simp] theorem lazyContents_cons (token : Token) (rest : List Token) :
    lazyContents (token :: rest) =
      if token.kind.isLazy = true then token :: lazyContents rest else lazyContents rest :=
  List.filter_cons

theorem lazyContents_eq_nil {tokens : List Token}
    (none : ∀ token ∈ tokens, token.kind.isLazy = false) : lazyContents tokens = [] := by
  apply List.filter_eq_nil_iff.mpr
  intro token member
  simp [none token member]

theorem Token.Finishes.not_lazy {held : List HeldBlank} {token : Token}
    (finishes : token.Finishes held) : token.kind.isLazy = false := by
  obtain ⟨kind, position, lead, literal⟩ := token
  rcases finishes with isEnd | ⟨isBlank, _⟩
  · cases kind <;> first | rfl | cases isEnd
  · cases isBlank
    rfl

theorem OpenLeaf.lazyContents_close {leaf : OpenLeaf} (coherent : leaf.Coherent) (natural : Bool)
    (position : Position) :
    lazyContents (leaf.close natural position) = lazyContents leaf.pending := by
  obtain ⟨ends, closing, finishes⟩ := leaf.close_finishes coherent natural position
  rw [closing, lazyContents_append, lazyContents_eq_nil fun token member =>
    (finishes token member).not_lazy, List.append_nil]

@[simp] theorem Containers.lazyContents_close (containers : Containers) (natural : Bool)
    (position : Position) : lazyContents (containers.close natural position) = [] := by
  apply lazyContents_eq_nil
  intro token member
  obtain ⟨frame, _, rfl⟩ := List.mem_map.mp member
  rfl

namespace Tokenizer

def Effect.tokens (effect : Effect) : List Token :=
  effect.written ++ effect.leaf.pending

/-- The tokens that a line adds behind those of the lines before. -/
def addedBy (lines : List Line) (line : Line) : List Token :=
  (tokensAfter (lines ++ [line])).drop (tokensAfter lines).length

@[simp] theorem isLazy_openContainer (line : Line) (lead : Text) (containers : Containers)
    (marker : Marker) : (openContainer line lead containers marker).1.kind.isLazy = false := by
  cases marker <;> rfl

@[simp] theorem lazyContents_openAll (line : Line) (containers : Containers)
    (markers : List Marker) : lazyContents (openAll line containers markers).1 = [] := by
  induction markers generalizing containers with
  | nil => rfl
  | cons marker rest ih => simp [openAll, ih]

theorem lazyContents_openFirst (line : Line) (lead : Text) (containers : Containers)
    {leaf : OpenLeaf} (coherent : leaf.Coherent) (depth : Nat) (marker : Marker) :
    lazyContents (openFirst line lead containers leaf depth marker).1 =
      lazyContents leaf.pending := by
  have closing := OpenLeaf.lazyContents_close coherent
  refine openFirst_cases
    (motive := fun opened => lazyContents opened.1 = lazyContents leaf.pending)
    line lead containers leaf depth marker ?all ?sibling ?replaced ?other
  case all =>
    intro _
    simp [closing]
  case sibling =>
    intro start item kind current inner _ _ _
    simp [closing, tokenAt, TokenKind.isLazy]
  case replaced =>
    intro start item kind current inner _ _ _
    simp [closing]
  case other =>
    intro frame inner _ _
    simp [closing]

theorem lazyContents_paragraphLine (line : Line) (lead : Text) (c : Cursor)
    (containers : Containers) {leaf : OpenLeaf} (coherent : leaf.Coherent) :
    lazyContents (paragraphLine line lead c containers leaf false).tokens =
      lazyContents leaf.pending := by
  have closing := OpenLeaf.lazyContents_close coherent true (line.position c.offset)
  cases leaf with
  | paragraph opening contents =>
    simp [paragraphLine, Effect.tokens, OpenLeaf.pending, tokenAt, TokenKind.isLazy, coherent.1]
  | _ => simp [paragraphLine, Effect.tokens, OpenLeaf.pending, closing, tokenAt, TokenKind.isLazy]

@[simp] theorem lazyContents_codeLine (line : Line) (lead : Text) (c : Cursor)
    (held : List HeldBlank) : lazyContents (codeLine line lead c held) = [] := by
  apply lazyContents_eq_nil
  intro token member
  rcases List.mem_append.mp member with blank | code
  · obtain ⟨blank, _, rfl⟩ := List.mem_map.mp blank
    rfl
  · cases List.mem_singleton.mp code
    rfl

theorem lazyContents_leafLine (line : Line) (lead : Text) (c : Cursor) (containers : Containers)
    {leaf : OpenLeaf} (opened : Bool) (coherent : leaf.Coherent)
    (noFence : ∀ fence, leaf ≠ .fencedCode fence) :
    lazyContents (leafLine line lead c containers leaf opened).tokens =
      lazyContents leaf.pending := by
  have closing := OpenLeaf.lazyContents_close coherent true (line.position c.offset)
  refine leafLine_cases (motive := fun effect => lazyContents effect.tokens = _) line lead c
    containers leaf opened noFence ?held ?blank ?setext ?text ?moreCode ?newCode ?atxHeading
    ?thematicBreak ?fenceOpen
  case held =>
    intro held isCode _
    subst isCode
    rfl
  case blank =>
    intro _ _
    simp [Effect.tokens, OpenLeaf.pending, closing, tokenAt, TokenKind.isLazy]
  case setext =>
    intro level opening contents isParagraph _
    subst isParagraph
    simp [Effect.tokens, OpenLeaf.pending, tokenAt, TokenKind.isLazy, coherent.1]
  case text =>
    intro _
    exact lazyContents_paragraphLine line lead c containers coherent
  case moreCode =>
    intro held isCode _
    subst isCode
    simp [Effect.tokens, OpenLeaf.pending]
  case newCode =>
    intro isNone _
    subst isNone
    simp [Effect.tokens, OpenLeaf.pending, tokenAt, TokenKind.isLazy]
  case atxHeading =>
    intro heading _
    simp [Effect.tokens, OpenLeaf.pending, closing, tokenAt, endToken, TokenKind.isLazy]
  case thematicBreak =>
    intro _
    simp [Effect.tokens, OpenLeaf.pending, closing, tokenAt, endToken, TokenKind.isLazy]
  case fenceOpen =>
    intro fence _
    simp [Effect.tokens, OpenLeaf.pending, closing, tokenAt, TokenKind.isLazy]

/-- The line goes on lazily with the leaf: `found` tells how far it continues the containers. -/
structure GoesOnLazily (containers : Containers) (leaf : OpenLeaf) (found : Containers.Match) :
    Prop where
  inParagraph : leaf.isParagraph = true
  unmatched : found.depth < containers.length
  goesOn : found.cursor.GoesOn

section
variable {containers : Containers} {leaf : OpenLeaf} {line : Line} {found : Containers.Match}
  (matching : containers.matchLine line.expanded = found)
include matching

theorem lineEffect_of_goesOnLazily (isLazy : GoesOnLazily containers leaf found) :
    lineEffect containers leaf line =
      paragraphLine line (found.lead line.expanded) found.cursor containers leaf true := by
  obtain ⟨inParagraph, unmatched, goesOn⟩ := isLazy
  obtain ⟨stops, continues⟩ := Cursor.goesOn_iff.mp goesOn
  have some : found.depth ≠ containers.length := Nat.ne_of_lt unmatched
  refine lineEffect_cases (motive := fun effect => effect = _) containers leaf line matching
    ?fenced ?opened ?matched ?lazy ?unmatched
  case fenced =>
    intro fence _ all
    exact absurd all some
  case opened =>
    intro first later c markers _
    rw [beq_false_of_ne some, Bool.false_and, stops] at markers
    cases markers
  case matched =>
    intro all
    exact absurd all some
  case lazy =>
    intro _ _ _ _
    rfl
  case unmatched =>
    intro _ _ ends
    simp [inParagraph, continues] at ends

theorem lazyContents_lineEffect (coherent : leaf.Coherent)
    (notLazy : ¬ GoesOnLazily containers leaf found) :
    lazyContents (lineEffect containers leaf line).tokens = lazyContents leaf.pending := by
  have closing := OpenLeaf.lazyContents_close coherent
  have fresh (lead : Text) (c : Cursor) (kept : Containers) (opened : Bool) :
      lazyContents (leafLine line lead c kept .none opened).tokens = [] :=
    lazyContents_leafLine line lead c kept opened (show OpenLeaf.none.Coherent from trivial)
      (by simp)
  refine lineEffect_cases (motive := fun effect => lazyContents effect.tokens = _) containers leaf
    line matching ?fenced ?opened ?matched ?lazy ?unmatched
  case fenced =>
    intro fence isFence _
    subst isFence
    unfold fencedLine
    split
    all_goals simp [Effect.tokens, OpenLeaf.pending, tokenAt, TokenKind.isLazy]
  case opened =>
    intro first later c _ _
    have opening := lazyContents_openFirst line (found.lead line.expanded) containers coherent
      found.depth first
    have last := fresh [] c (openAll line (openFirst line (found.lead line.expanded) containers
      leaf found.depth first).2 later).2 true
    simp only [Effect.tokens, lazyContents_append] at last
    simp [Effect.tokens, openedLine, opening, last]
  case matched =>
    intro _ noFence _
    exact lazyContents_leafLine line _ _ containers false coherent noFence
  case lazy =>
    intro some stops isParagraph continues
    have depth := Containers.matchFrom_depth_le (.start line.expanded) containers
    have less : found.depth < containers.length :=
      Nat.lt_of_le_of_ne (matching ▸ depth) some
    exact absurd ⟨isParagraph, less, Cursor.goesOn_iff.mpr ⟨stops, continues⟩⟩ notLazy
  case unmatched =>
    intro _ _ _
    have last := fresh (found.lead line.expanded) found.cursor (containers.take found.depth) false
    simp only [Effect.tokens, lazyContents_append] at last
    simp [Effect.tokens, unmatchedLine, closing, last]

end

theorem tokensAfter_concat_eq (lines : List Line) (line : Line) :
    tokensAfter (lines ++ [line]) = writtenFrom .initial lines ++
      (lineEffect (stateAfter .initial lines).containers (stateAfter .initial lines).leaf
        line).tokens := by
  rw [tokensAfter, stateAfter_concat, writtenFrom_concat, List.append_assoc]
  rfl

/-- A line that changes the start of a paragraph changes no lazy content. -/
theorem lazyContents_tokensAfter_concat (lines : List Line) (line : Line) :
    lazyContents (tokensAfter (lines ++ [line])) =
      lazyContents (tokensAfter lines) ++ lazyContents (addedBy lines line) := by
  have added {earlier : List Token} (isPrefix : earlier <+: tokensAfter (lines ++ [line]))
      (size : earlier.length = (tokensAfter lines).length) :
      tokensAfter (lines ++ [line]) = earlier ++ addedBy lines line := by
    obtain ⟨later, whole⟩ := isPrefix
    rw [addedBy, ← size, ← whole, List.drop_left]
  rcases tokensAfter_concat lines line with same |
    ⟨before, opening, contents, level, _, starts, earlier, turned⟩
  · rw [added same rfl, lazyContents_append]
  · rw [added turned (by simp [earlier]), earlier]
    simp [starts, TokenKind.isLazy]

def lazyToken (line : Line) (found : Containers.Match) : Token :=
  tokenAt line (found.cursor.offset + found.cursor.indent)
    (.leafContent (paragraphText found.cursor.rest) true) (found.lead line.expanded)
    (literalFrom line found.cursor)

section
variable {lines : List Line} {line : Line} {found : Containers.Match}
  (matching : (stateAfter .initial lines).containers.matchLine line.expanded = found)
include matching

theorem step_of_goesOnLazily
    (isLazy : GoesOnLazily (stateAfter .initial lines).containers (stateAfter .initial lines).leaf
      found) :
    tokensAfter (lines ++ [line]) = tokensAfter lines ++ [lazyToken line found] ∧
      (stateAfter .initial (lines ++ [line])).containers =
        (stateAfter .initial lines).containers.markContent := by
  have effect := lineEffect_of_goesOnLazily matching isLazy
  have inParagraph := isLazy.inParagraph
  rw [tokensAfter_concat_eq, stateAfter_concat, step, effect, tokensAfter]
  cases isLeaf : (stateAfter .initial lines).leaf with
  | paragraph opening contents =>
    simp [paragraphLine, Effect.tokens, OpenLeaf.pending, lazyToken]
  | _ => simp [isLeaf, OpenLeaf.isParagraph] at inParagraph

theorem addedBy_lazy_iff :
    (∃ token ∈ addedBy lines line, token.kind.isLazy = true) ↔
      GoesOnLazily (stateAfter .initial lines).containers (stateAfter .initial lines).leaf
        found := by
  have added := lazyContents_tokensAfter_concat lines line
  constructor
  · rintro ⟨token, member, tokenLazy⟩
    by_contra notLazy
    have coherent := stateAfter_coherent .initial trivial lines
    rw [tokensAfter_concat_eq, lazyContents_append,
      lazyContents_lineEffect matching coherent notLazy, ← lazyContents_append] at added
    have none : lazyContents (addedBy lines line) = [] := List.self_eq_append_right.mp added
    have here : token ∈ lazyContents (addedBy lines line) :=
      List.mem_filter.mpr ⟨member, tokenLazy⟩
    rw [none] at here
    cases here
  · intro isLazy
    refine ⟨lazyToken line found, ?_, rfl⟩
    rw [addedBy, (step_of_goesOnLazily matching isLazy).1, List.drop_left]
    exact List.mem_singleton_self _

end
end Tokenizer

def OpenLeaf.EndsOn (number : Nat) (leaf : OpenLeaf) : Prop :=
  ∀ opening contents, leaf = .paragraph opening contents →
    ∃ earlier last, contents = earlier ++ [last] ∧ last.position.line = number

namespace Tokenizer

theorem paragraphLine_endsOn (line : Line) (lead : Text) (c : Cursor) (containers : Containers)
    (leaf : OpenLeaf) (isLazy : Bool) :
    (paragraphLine line lead c containers leaf isLazy).leaf.EndsOn line.number := by
  intro opening contents same
  cases leaf with
  | paragraph opening' contents' =>
    cases same
    exact ⟨contents', _, rfl, rfl⟩
  | _ =>
    cases same
    exact ⟨[], _, rfl, rfl⟩

theorem leafLine_endsOn (line : Line) (lead : Text) (c : Cursor) (containers : Containers)
    (leaf : OpenLeaf) (opened : Bool) (noFence : ∀ fence, leaf ≠ .fencedCode fence) :
    (leafLine line lead c containers leaf opened).leaf.EndsOn line.number := by
  refine leafLine_cases (motive := fun effect => effect.leaf.EndsOn line.number) line lead c
    containers leaf opened noFence ?held ?blank ?setext ?text ?moreCode ?newCode ?atxHeading
    ?thematicBreak ?fenceOpen
  case text =>
    intro _
    exact paragraphLine_endsOn line lead c containers leaf false
  all_goals simp [OpenLeaf.EndsOn]

theorem lineEffect_endsOn (containers : Containers) (leaf : OpenLeaf) (line : Line) :
    (lineEffect containers leaf line).leaf.EndsOn line.number := by
  refine lineEffect_cases (motive := fun effect => effect.leaf.EndsOn line.number) containers leaf
    line rfl ?fenced ?opened ?matched ?lazy ?unmatched
  case fenced =>
    intro fence _ _
    unfold fencedLine
    split <;> simp [OpenLeaf.EndsOn]
  case opened =>
    intro first later c _ _
    exact leafLine_endsOn line [] c _ .none true (by simp)
  case matched =>
    intro _ noFence _
    exact leafLine_endsOn line _ _ containers leaf false noFence
  case lazy =>
    intro _ _ _ _
    exact paragraphLine_endsOn line _ _ containers leaf true
  case unmatched =>
    intro _ _ _
    exact leafLine_endsOn line _ _ _ .none false (by simp)

/-- Where a paragraph is open, the tokens end with its text, the last of which is on the last
line. -/
theorem exists_previous {lines : List Line}
    (isParagraph : (stateAfter .initial lines).leaf.isParagraph = true) :
    ∃ before opening contents previous earlier last, lines = earlier ++ [last] ∧
      tokensAfter lines = before ++ opening :: (contents ++ [previous]) ∧
      opening.kind = .leafStart .paragraph ∧
      (∀ token ∈ contents ++ [previous], ∃ text isLazy, token.kind = .leafContent text isLazy) ∧
      previous.position.line = last.number := by
  have coherent := stateAfter_coherent .initial trivial lines
  rcases List.eq_nil_or_concat lines with rfl | ⟨earlier, last, rfl⟩
  · cases isParagraph
  · rw [List.concat_eq_append] at isParagraph coherent ⊢
    have endsOn : (stateAfter .initial (earlier ++ [last])).leaf.EndsOn last.number := by
      rw [stateAfter_concat]
      exact lineEffect_endsOn _ _ last
    cases isLeaf : (stateAfter .initial (earlier ++ [last])).leaf with
    | paragraph opening contents =>
      obtain ⟨front, previous, rfl, line⟩ := endsOn opening contents isLeaf
      rw [isLeaf] at coherent
      have tokens : tokensAfter (earlier ++ [last]) =
          writtenFrom .initial (earlier ++ [last]) ++ opening :: (front ++ [previous]) := by
        rw [tokensAfter, isLeaf]
        rfl
      exact ⟨_, opening, front, previous, earlier, last, rfl, tokens, coherent.1, coherent.2, line⟩
    | _ => simp [isLeaf, OpenLeaf.isParagraph] at isParagraph

end Tokenizer

theorem Source.number_next {text : Text} {tabWidth : Nat} {earlier : List Line} {last line : Line}
    (isStart : earlier ++ [last] ++ [line] <+: (ofText text tabWidth).lines) :
    line.number = last.number + 1 := by
  obtain ⟨later, whole⟩ := isStart
  have numbers := layOut_numbers tabWidth 1 0 (rawLines text)
  change (ofText text tabWidth).lines.map Line.number = _ at numbers
  rw [← whole, List.append_assoc, List.append_assoc, List.map_append] at numbers
  obtain ⟨_, _, _, fromLast⟩ := List.range'_eq_append_iff.mp numbers.symm
  obtain ⟨atLast, _, fromLine⟩ := List.range'_eq_cons_iff.mp fromLast.symm
  obtain ⟨atLine, _⟩ := List.range'_eq_cons_iff.mp fromLine.symm
  omega

namespace Tokenizer

/-- A line adds a lazy content if and only if it goes on lazily with an open paragraph. It then adds
nothing else and leaves the containers open that were, and right before its token stands the text of
the same paragraph on the line before. -/
theorem lazy_iff_goesOnLazily (lines : List Line) (line : Line) :
    let state := stateAfter .initial lines
    let found := state.containers.matchLine line.expanded
    ((∃ token ∈ addedBy lines line, token.kind.isLazy = true) ↔
      GoesOnLazily state.containers state.leaf found) ∧
    ((∃ token ∈ addedBy lines line, token.kind.isLazy = true) →
      ∃ token before opening contents previous,
        tokensAfter (lines ++ [line]) = tokensAfter lines ++ [token] ∧
        token.kind = .leafContent (paragraphText found.cursor.rest) true ∧
        (stateAfter .initial (lines ++ [line])).containers.kinds = state.containers.kinds ∧
        tokensAfter lines = before ++ opening :: (contents ++ [previous]) ∧
        opening.kind = .leafStart .paragraph ∧
        (∀ content ∈ contents ++ [previous], ∃ text isLazy,
          content.kind = .leafContent text isLazy) ∧
        ∀ text tabWidth, lines ++ [line] <+: (Source.ofText text tabWidth).lines →
          token.position.line = previous.position.line + 1) := by
  intro state found
  have exact_iff := addedBy_lazy_iff (rfl : state.containers.matchLine line.expanded = found)
  refine ⟨exact_iff, ?_⟩
  intro added
  have isLazy := exact_iff.mp added
  obtain ⟨adds, containers⟩ :=
    step_of_goesOnLazily (rfl : state.containers.matchLine line.expanded = found) isLazy
  obtain ⟨before, opening, contents, previous, earlier, last, rfl, tokens, starts, isContent,
    number⟩ := exists_previous isLazy.inParagraph
  refine ⟨lazyToken line found, before, opening, contents, previous, adds, rfl, ?_, tokens, starts,
    isContent, ?_⟩
  · rw [containers, Containers.kinds_markContent]
  · intro text tabWidth isStart
    rw [number]
    exact Source.number_next isStart

-- A quoted paragraph goes on outside its quote.
example :
    (addedBy [.ofRaw 1 ⟨0, 4⟩ ['>', ' ', 'a', '\n'] 4] (.ofRaw 2 ⟨4, 6⟩ [' ', 'b'] 4)).map
      Token.kind = [.leafContent ['b'] true] := by
  decide +kernel

end Tokenizer
end BlockLint
